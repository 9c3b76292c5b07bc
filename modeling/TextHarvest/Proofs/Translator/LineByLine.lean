import TextHarvest.Proofs.Translator.Alone
import TextHarvest.Translator.Service

/-!
# Answers line by line

Some services translate line by line: a reply has one entry for each line of the request, with the
line it came from. Such a reply is put back together from its translations, only that a separating
line is taken from its source. So it does not matter what became of the separating lines. As long as
the other translations hold no marks, each text of a batch comes back as the translations of its own
lines, however many of them it has.

* `Batch.lineTexts_ofTexts` — the lines of a batch are those of its texts, with a separating line
  between two texts.
* `Baidu.shares` — the entries of a reply, text by text.
* `Baidu.joined_linesText` — what a reply comes to is joined from what was made of each text.

Main result: `Baidu.unpack_read`.
-/

namespace TextHarvest

/-! ## Characters of a text -/

/-- A character of joined texts is one of a text, or of what joins them. -/
theorem Text.mem_of_mem_intercalate {sep : String} {texts : List String} {c : Char}
    (h : c ∈ (sep.intercalate texts).toList) :
    c ∈ sep.toList ∨ ∃ text ∈ texts, c ∈ text.toList := by
  induction texts with
  | nil => simp at h
  | cons text texts ih =>
    cases texts with
    | nil => exact Or.inr ⟨text, List.mem_cons_self, by simpa using h⟩
    | cons next texts =>
      rw [String.intercalate_cons_cons, String.toList_append, String.toList_append,
        List.mem_append, List.mem_append] at h
      rcases h with (htext | hsep) | hrest
      · exact Or.inr ⟨text, List.mem_cons_self, htext⟩
      · exact Or.inl hsep
      · refine (ih hrest).imp_right ?_
        rintro ⟨other, hother, hc⟩
        exact ⟨other, List.mem_cons_of_mem _ hother, hc⟩

namespace Batch

/-! ## Lines of a batch -/

/-- The line that stands between two texts of a batch. -/
def separatingLine : String :=
  String.ofList [mark, mark, mark]

/-- Without its blanks a separator is its line. -/
theorem trim_separator : Text.trim separator = separatingLine := by
  decide

/-- That line has no outer blanks. -/
theorem trim_separatingLine : Text.trim separatingLine = separatingLine := by
  decide

/-- A separator is its line on a line of its own. -/
theorem separator_eq : separator = "\n" ++ separatingLine ++ "\n" := by
  decide

/-- Without further blanks it is the separator itself. -/
theorem spacedSeparator_zero : spacedSeparator 0 0 = separator :=
  rfl

/-- The lines of a text, each as a text. -/
def lineTexts (text : String) : List String :=
  (lines text.toList).map String.ofList

/-- The separating line is one line. -/
theorem lineTexts_separatingLine : lineTexts separatingLine = [separatingLine] := by
  decide

/-- A text has a line. -/
theorem lineTexts_ne_nil (text : String) : lineTexts text ≠ [] := by
  rw [lineTexts, lines_eq_splitOn]
  simp

/-- The lines of two texts with a break between them. -/
theorem lineTexts_append (text rest : String) :
    lineTexts (text ++ "\n" ++ rest) = lineTexts text ++ lineTexts rest := by
  simp only [lineTexts, lines_eq_splitOn, String.toList_append, List.append_assoc]
  show (List.splitOn '\n' (text.toList ++ '\n' :: rest.toList)).map String.ofList = _
  rw [List.splitOn_append_cons_self, List.map_append]

/-- A piece has characters of the text. -/
theorem Parted.subset {sep cs piece : List Char} {pieces : List (List Char)}
    (h : Parted sep pieces cs) (hpiece : piece ∈ pieces) : piece ⊆ cs := by
  induction h with
  | last _ =>
    rw [List.mem_singleton] at hpiece
    rw [hpiece]
    exact List.Subset.refl _
  | cons _ _ ih =>
    rcases List.mem_cons.mp hpiece with rfl | hrest
    · exact List.subset_append_left _ _
    · intro c hc
      exact List.mem_append_right _ (List.mem_append_right _ (ih hrest hc))

/-- So has a line. -/
theorem mem_of_mem_lineTexts {text line : String} (hline : line ∈ lineTexts text) {c : Char}
    (hc : c ∈ line.toList) : c ∈ text.toList := by
  rw [lineTexts, lines_eq_splitOn] at hline
  obtain ⟨cs, hcs, rfl⟩ := List.mem_map.mp hline
  rw [String.toList_ofList] at hc
  exact (parted_splitOn text.toList).subset hcs hc

/-- The lines of a batch of one text are those of the text. -/
theorem lineTexts_ofTexts_singleton (text : String) :
    lineTexts (ofTexts [text]).text = lineTexts text := by
  rw [ofTexts, String.intercalate_singleton]

/-- The lines of a batch: those of its first text, a separating line, and those of the others. -/
theorem lineTexts_ofTexts (text : String) {texts : List String} (hne : texts ≠ []) :
    lineTexts (ofTexts (text :: texts)).text =
      lineTexts text ++ separatingLine :: lineTexts (ofTexts texts).text := by
  have hjoined : (ofTexts (text :: texts)).text =
      text ++ "\n" ++ (separatingLine ++ "\n" ++ (ofTexts texts).text) := by
    simp only [ofTexts, String.intercalate_cons_of_ne_nil hne, separator_eq, String.append_assoc]
  rw [hjoined, lineTexts_append, lineTexts_append, lineTexts_separatingLine, List.singleton_append]

end Batch

namespace Baidu

open Batch (separator separatingLine lineTexts)

/-! ## Entries of a reply -/

/-- The entries of a reply for each text of a batch: one for each line of the text, and behind them
one for the separating line that follows it. -/
def shares : List String → List (String × String) → List (List (String × String))
  | [], _ => []
  | text :: texts, entries =>
    entries.take (lineTexts text).length ::
      shares texts (entries.drop ((lineTexts text).length + 1))

/-- What was made of a text: the translations of its lines, one below the other. -/
def translation (share : List (String × String)) : String :=
  "\n".intercalate (share.map Prod.snd)

/-- A reply with one entry for each line of a batch, in order. A translation may hold marks only if
it is that of a separating line. -/
structure FollowsLines (texts : List String) (entries : List (String × String)) : Prop where
  sources : entries.map Prod.fst = lineTexts (Batch.ofTexts texts).text
  clean : ∀ e ∈ entries, e.1 ≠ separatingLine → Batch.mark ∉ e.2.toList

variable {text : String} {texts : List String} {entries : List (String × String)}

/-- A text has a line, so it has an entry. -/
theorem ne_nil_of_sources {share : List (String × String)}
    (h : share.map Prod.fst = lineTexts text) : share ≠ [] := by
  rintro rfl
  exact Batch.lineTexts_ne_nil text h.symm

/-- Behind the entries of a first text there is one for a separating line, then those of the other
texts. -/
theorem exists_of_sources (hne : texts ≠ [])
    (h : entries.map Prod.fst = lineTexts (Batch.ofTexts (text :: texts)).text) :
    ∃ share translated rest, entries = share ++ (separatingLine, translated) :: rest ∧
      share.map Prod.fst = lineTexts text ∧
      rest.map Prod.fst = lineTexts (Batch.ofTexts texts).text ∧
      shares (text :: texts) entries = share :: shares texts rest := by
  rw [Batch.lineTexts_ofTexts text hne] at h
  -- the sources are cut where the first share ends, at a separating line
  obtain ⟨share, behind, rfl, hshare, hbehind⟩ := List.map_eq_append_iff.mp h
  obtain ⟨⟨source, translated⟩, rest, rfl, hsource, hrest⟩ := List.map_eq_cons_iff.mp hbehind
  obtain rfl : source = separatingLine := hsource
  refine ⟨share, translated, rest, rfl, hshare, hrest, ?_⟩
  have hlength : (lineTexts text).length = share.length := by
    rw [← hshare, List.length_map]
  rw [shares, hlength, List.take_left, ← List.drop_drop, List.drop_left]
  rfl

/-- The share of a single text is the whole reply. -/
theorem shares_singleton (h : entries.map Prod.fst = lineTexts (Batch.ofTexts [text]).text) :
    shares [text] entries = [entries] := by
  rw [Batch.lineTexts_ofTexts_singleton] at h
  rw [shares, shares, ← h, List.length_map, List.take_length]

/-- Each text has the entries of its own lines. -/
theorem sources_shares (hne : texts ≠ [])
    (h : entries.map Prod.fst = lineTexts (Batch.ofTexts texts).text) :
    (shares texts entries).map (·.map Prod.fst) = texts.map lineTexts := by
  induction texts generalizing entries with
  | nil => exact absurd rfl hne
  | cons text texts ih =>
    by_cases hlast : texts = []
    · subst hlast
      rw [shares_singleton h, List.map_singleton, List.map_singleton, h,
        Batch.lineTexts_ofTexts_singleton]
    · obtain ⟨share, translated, rest, -, hshare, hrest, hshares⟩ := exists_of_sources hlast h
      rw [hshares, List.map_cons, List.map_cons, hshare, ih hlast hrest]

/-- An entry of a share is one of the reply. -/
theorem mem_of_mem_shares {share : List (String × String)} (hshare : share ∈ shares texts entries)
    {e : String × String} (he : e ∈ share) : e ∈ entries := by
  induction texts generalizing entries with
  | nil => cases hshare
  | cons text texts ih =>
    rw [shares, List.mem_cons] at hshare
    rcases hshare with rfl | hrest
    · exact List.mem_of_mem_take he
    · exact List.mem_of_mem_drop (ih hrest)

/-! ## What a reply comes to -/

/-- The line that an entry leaves: the translation, but for a separating line. -/
def kept (e : String × String) : String :=
  if Text.trim e.1 = separatingLine then separatingLine else e.2

/-- A reply is put together line by line. -/
theorem linesText_eq (entries : List (String × String)) :
    linesText separator entries = "\n".intercalate (entries.map kept) := by
  have hmark : separatingLine != "" := by
    decide
  simp only [linesText, Batch.trim_separator, hmark, Bool.true_and, beq_iff_eq]
  rfl

/-- The separating line is kept whatever became of it. -/
theorem kept_separatingLine (translated : String) :
    kept (separatingLine, translated) = separatingLine :=
  if_pos Batch.trim_separatingLine

/-- A line without marks is no separating line, not even when it is trimmed. -/
theorem kept_of_not_mem {e : String × String} (h : Batch.mark ∉ e.1.toList) : kept e = e.2 := by
  apply if_neg
  intro htrim
  have hmem : Batch.mark ∈ (Text.trim e.1).toList := by
    rw [htrim]
    decide
  rw [Text.trim, String.toList_ofList] at hmem
  exact h (Chars.mem_of_mem_trim hmem)

/-- In a share the lines are the translated ones. -/
theorem map_kept_of_sources {share : List (String × String)}
    (hshare : share.map Prod.fst = lineTexts text) (hfree : Batch.mark ∉ text.toList) :
    share.map kept = share.map Prod.snd := by
  apply List.map_congr_left
  intro e he
  apply kept_of_not_mem
  intro hmark
  have hline : e.1 ∈ lineTexts text := hshare ▸ List.mem_map_of_mem he
  exact hfree (Batch.mem_of_mem_lineTexts hline hmark)

/-- A reply comes to what was made of each text, joined by separating lines. -/
theorem joined_linesText (hne : texts ≠ []) (hfree : ∀ text ∈ texts, Batch.mark ∉ text.toList)
    (h : entries.map Prod.fst = lineTexts (Batch.ofTexts texts).text) :
    Batch.Joined ((shares texts entries).map translation) (linesText separator entries) := by
  rw [linesText_eq]
  induction texts generalizing entries with
  | nil => exact absurd rfl hne
  | cons text texts ih =>
    obtain ⟨htext, hothers⟩ := List.forall_mem_cons.mp hfree
    by_cases hlast : texts = []
    · subst hlast
      rw [shares_singleton h, List.map_singleton]
      rw [Batch.lineTexts_ofTexts_singleton] at h
      rw [map_kept_of_sources h htext]
      exact .last _
    · obtain ⟨share, translated, rest, rfl, hshare, hrest, hshares⟩ := exists_of_sources hlast h
      -- a separating line between two lines makes a separator
      have hanswer : "\n".intercalate ((share ++ (separatingLine, translated) :: rest).map kept) =
          translation share ++ Batch.spacedSeparator 0 0 ++ "\n".intercalate (rest.map kept) := by
        rw [List.map_append, List.map_cons, map_kept_of_sources hshare htext, kept_separatingLine,
          String.intercalate_append_of_ne_nil (by simpa using ne_nil_of_sources hshare) (by simp),
          String.intercalate_cons_of_ne_nil (by simpa using ne_nil_of_sources hrest),
          Batch.spacedSeparator_zero, Batch.separator_eq, translation]
        simp only [String.append_assoc]
      rw [hshares, List.map_cons, hanswer]
      exact .cons _ 0 0 (ih hlast hothers hrest)

/-- What was made of a text holds no marks. -/
theorem not_mem_translation {share : List (String × String)} (h : FollowsLines texts entries)
    (hne : texts ≠ []) (hfree : ∀ text ∈ texts, Batch.mark ∉ text.toList)
    (hshare : share ∈ shares texts entries) : Batch.mark ∉ (translation share).toList := by
  intro hmark
  -- the lines of this share are those of a text, so none of them is a separating line
  have hsources : share.map Prod.fst ∈ texts.map lineTexts := by
    rw [← sources_shares hne h.sources]
    exact List.mem_map_of_mem hshare
  obtain ⟨text, htext, hlines⟩ := List.mem_map.mp hsources
  rcases Text.mem_of_mem_intercalate hmark with hbreak | ⟨translated, htranslated, hc⟩
  · revert hbreak
    decide
  · obtain ⟨e, he, rfl⟩ := List.mem_map.mp htranslated
    refine h.clean e (mem_of_mem_shares hshare he) ?_ hc
    intro hseparates
    have hline : separatingLine ∈ lineTexts text := by
      rw [hlines, ← hseparates]
      exact List.mem_map_of_mem he
    exact hfree text htext (Batch.mem_of_mem_lineTexts hline (by decide))

/-- A reply that is no error is read. -/
theorem read_of_reply {body : Json} {code : Option Json} {message : Option String}
    (hbody : reply? body = some (code, message, entries))
    (hsuccess : ∀ c ∈ code, codeText c = successCode) (sep : String) :
    read sep body = .ok (linesText sep entries) := by
  rw [read, hbody]
  cases code with
  | none => rfl
  | some c =>
    have hc : codeText c = successCode := hsuccess c rfl
    simp [hc]

/-- A reply without an error that follows the lines of at least two texts without marks is cut into
one text for each of them: the translations of its lines, one below the other and without the blanks
at their ends. What became of the separating lines does not matter. -/
theorem unpack_read {body : Json} {code : Option Json} {message : Option String}
    (htwo : 2 ≤ texts.length) (hfree : ∀ text ∈ texts, Batch.mark ∉ text.toList)
    (hbody : reply? body = some (code, message, entries))
    (hsuccess : ∀ c ∈ code, codeText c = successCode) (hlines : FollowsLines texts entries) :
    ∃ answer, read separator body = .ok answer ∧
      Batch.unpack answer id =
        (shares texts entries).map (fun share => Text.trim (translation share)) ∧
      (shares texts entries).map (·.map Prod.fst) = texts.map lineTexts := by
  have hne : texts ≠ [] := by
    rintro rfl
    simp at htwo
  have hsources := sources_shares hne hlines.sources
  -- one share of the answer for each text, so that the pieces can be counted
  have hcount : (shares texts entries).length = texts.length := by
    rw [← List.length_map (f := (·.map Prod.fst)), hsources, List.length_map]
  refine ⟨_, read_of_reply hbody hsuccess separator, ?_, hsources⟩
  rw [Batch.unpack_joined (joined_linesText hne hfree hlines.sources) ?_ (by simpa [hcount]),
    List.map_map]
  · rfl
  · intro value hvalue
    obtain ⟨share, hshare, rfl⟩ := List.mem_map.mp hvalue
    exact not_mem_translation hlines hne hfree hshare

/-- The body of a reply with some entries. -/
def bodyOf (entries : List (String × String)) : Json :=
  .obj [("from", .str "zh"), ("to", .str "en"), ("error_code", .str successCode),
    ("trans_result", .arr (entries.map fun e => .obj [("src", .str e.1), ("dst", .str e.2)]))]

/-- A text with a line feed at its end, one without characters and one of two lines; the separating
lines come back damaged. -/
def mangled : List (String × String) :=
  [("你好", " Hello"), ("", ""), ("┇┇┇", "┇ ┇┇┇"), ("", ""), ("┇┇┇", "|||"), ("第一行", "Line one"),
    ("第二行", "Line two\n")]

/-- A reply whose separating line was translated still has a piece for each text. -/
theorem unpack_read_mangled :
    ∃ answer, read separator (bodyOf mangled) = .ok answer ∧
      Batch.unpack answer id = ["Hello", "", "Line one\nLine two"] := by
  have hbody : reply? (bodyOf mangled) = some (some (.str successCode), none, mangled) := rfl
  have hlines : FollowsLines ["你好\n", "", "第一行\n第二行"] mangled :=
    ⟨by decide, by decide⟩
  obtain ⟨answer, hread, hunpack, -⟩ :=
    unpack_read (by decide) (by decide) hbody (by simp [codeText]) hlines
  refine ⟨answer, hread, hunpack.trans ?_⟩
  decide

end Baidu

end TextHarvest
