import TextHarvest.Proofs.Locale.Spelled
import TextHarvest.Proofs.Translator.Alignment

/-!
# Filling keeps translations

A locale file is filled by translating the texts that it lacks or has empty. What is there with a
text stays, in its place and with its text; so do entries that the sources do not know. The keys of
the sources that were not there come behind the others, in the order of the sources. This holds
over a whole run, also when languages are repeated or share a file, as long as a language that is
reached sees the file that it is going to write (`FileTree.Shows`). It does not when a directory on
its way is missing: then it finds no file, makes the directory and overwrites the file behind it.

* `fillOne_cases` — all that filling the file of one language can do.
* `kept_filled` — what is written keeps what was read.
* `kept_step`, `kept_foldl` — what one language and what a run makes of the file at a place.

Main result: `fill_keeps`, with the run that overwrites a translation in
`not_keepsTranslations_detour`.
-/

namespace TextHarvest

open FileTree Orchestra

/-- A path shows what stands at the place that it leads to. -/
def FileTree.Shows (t : FileTree) (path : String) : Prop :=
  t.lookup? path = t.entry? (Path.place path)

instance (t : FileTree) (path : String) : Decidable (t.Shows path) :=
  inferInstanceAs (Decidable (_ = _))

namespace Locale

/-! ## One file -/

/-- What filling a file from the sources makes of its entries. -/
structure Kept (source old new : Catalog) : Prop where
  /-- The old keys stay in their places, and the keys of the sources that were not there follow. -/
  keys_eq : new.keys = old.keys ++ source.keys.filter (· ∉ old.keys)
  /-- Texts that were there and entries that the sources do not know are as before. -/
  texts : ∀ k v, old.get? k = some v → v ≠ "" ∨ k ∉ source.keys → new.get? k = some v

/-- The number of keys of the sources that a file lacks or has empty. -/
def lacking (source target : Catalog) : Nat :=
  source.keys.countP fun k => (target.get? k).getD "" == ""

/-- A missing text counts as an empty one. -/
theorem all_eq_getD (text : Option String) : text.all (· == "") = (text.getD "" == "") := by
  cases text <;> rfl

/-- As many texts are sent as a locale lacks. -/
theorem length_missing (source target : Catalog) :
    (missing source target).length = lacking source target := by
  unfold missing lacking Catalog.keys
  rw [← List.countP_eq_length_filter, List.countP_map]
  simp only [all_eq_getD, Function.comp_def]

/-- A file that lacks nothing has a text for each key of the sources. -/
theorem exists_text_of_missing_eq_nil {source target : Catalog}
    (h : missing source target = []) {k : String} (hk : k ∈ source.keys) :
    ∃ v, target.get? k = some v := by
  obtain ⟨e, he, rfl⟩ := List.mem_map.mp hk
  have htext := List.filter_eq_nil_iff.mp h e he
  cases hget : target.get? e.1 with
  | none => simp [hget] at htext
  | some v => exact ⟨v, rfl⟩

/-- Every key of the source is in the new catalog. -/
theorem Kept.source_subset {source old new : Catalog} (h : Kept source old new) {k : String}
    (hk : k ∈ source.keys) : k ∈ new.keys := by
  rw [h.keys_eq, List.mem_append]
  by_cases hold : k ∈ old.keys
  · exact Or.inl hold
  · exact Or.inr (List.mem_filter.mpr ⟨hk, by simpa using hold⟩)

/-- What is kept twice is kept. -/
theorem Kept.trans {source a b c : Catalog} (h : Kept source a b) (h' : Kept source b c) :
    Kept source a c := by
  constructor
  · -- the first filling leaves no key of the sources to be added
    have hnone : source.keys.filter (· ∉ b.keys) = [] := by
      rw [List.filter_eq_nil_iff]
      intro k hk
      simpa using h.source_subset hk
    rw [h'.keys_eq, hnone, List.append_nil, h.keys_eq]
  · intro k v hget hstays
    exact h'.texts k v (h.texts k v hget hstays) hstays

/-- A file that lacks nothing is kept as it is. -/
theorem kept_of_missing_eq_nil {source target : Catalog} (h : missing source target = []) :
    Kept source target target := by
  constructor
  · have hnone : source.keys.filter (· ∉ target.keys) = [] := by
      rw [List.filter_eq_nil_iff]
      intro k hk
      simpa using Catalog.mem_keys_iff.mpr (exists_text_of_missing_eq_nil h hk)
    rw [hnone, List.append_nil]
  · intro k v hget _
    exact hget

/-- A catalog with texts for the entries that it lacks. -/
def filled (source target : Catalog) (values : List String) : Catalog :=
  target.insertAll (((missing source target).map Prod.fst).zip values)

/-- What is written keeps what was read, if there is a text for each entry. -/
theorem kept_filled {source target : Catalog} {values : List String}
    (hlength : values.length = (missing source target).length) :
    Kept source target (filled source target values) := by
  have hkeys : (((missing source target).map Prod.fst).zip values).map Prod.fst =
      (missing source target).map Prod.fst :=
    List.map_fst_zip (by rw [List.length_map, hlength])
  have hsub : ((missing source target).map Prod.fst).Sublist source.keys :=
    List.filter_sublist.map Prod.fst
  constructor
  · -- a key that is not there is one that is missing
    have hnew : ((missing source target).map Prod.fst).filter (· ∉ target.keys) =
        source.keys.filter (· ∉ target.keys) := by
      unfold missing Catalog.keys
      rw [List.filter_map, List.filter_map, List.filter_filter]
      congr 1
      apply List.filter_congr
      intro e he
      by_cases hmem : e.1 ∈ target.entries.map Prod.fst
      · simp [hmem]
      · have hnone : target.get? e.1 = none := Catalog.get?_eq_none_iff.mpr hmem
        simp [hmem, hnone]
    rw [filled, Catalog.keys_insertAll (by rw [hkeys]; exact hsub.nodup source.nodup_keys), hkeys,
      hnew]
  · intro k v hget hstays
    rw [filled, Catalog.get?_insertAll_of_not_mem, hget]
    rw [hkeys]
    rcases hstays with htext | hforeign
    · exact not_mem_keys_missing htext hget
    · exact fun hmem => hforeign (hsub.subset hmem)

/-! ## Files and directories stay what they are -/

/-- Every directory is still a directory and every file a file, whatever it says. -/
structure KeepsKinds (t u : FileTree) : Prop where
  dirs : KeepsDirs t u
  files : ∀ p f, t.entry? p = some (.file f) → ∃ g, u.entry? p = some (.file g)

/-- Where nothing happens everything stays what it is. -/
theorem KeepsKinds.refl (t : FileTree) : KeepsKinds t t :=
  ⟨.refl t, fun _ f hf => ⟨f, hf⟩⟩

/-- One step after the other. -/
theorem KeepsKinds.trans {t u v : FileTree} (h : KeepsKinds t u) (h' : KeepsKinds u v) :
    KeepsKinds t v := by
  refine ⟨h.dirs.trans h'.dirs, ?_⟩
  intro p f hf
  obtain ⟨g, hg⟩ := h.files p f hf
  exact h'.files p g hg

/-- A write makes no file of a directory and no directory of a file. -/
theorem keepsKinds_write (t : FileTree) (path : String) (c : Catalog) :
    KeepsKinds t (write t path c).1 := by
  refine ⟨keepsDirs_write t path c, ?_⟩
  have hfiles := (makeDirs_keeps (Path.components ((Path.parent? path).getD "")) [] false t).2
  rw [write_eq, createDirs]
  generalize makeDirs _ _ _ _ = result at hfiles ⊢
  obtain ⟨made, _ | fault⟩ := result
  · dsimp only
    split
    · exact fun p f hf => ⟨f, hfiles p f hf⟩
    · rename_i hwrite
      intro p f hf
      -- a file takes the place of a file
      obtain ⟨-, hne, -, rfl⟩ := write?_eq_some hwrite
      rw [entry?_set hne]
      split
      · exact ⟨_, rfl⟩
      · exact ⟨f, hfiles p f hf⟩
  · exact fun p f hf => ⟨f, hfiles p f hf⟩

end Locale

open TextHarvest.Locale

section Run

variable {o : Orchestra} {options : Options} {root : String} {source : Catalog}

/-! ## One language -/

/-- No locale file failed to be written. -/
def FillReport.AllWritten (r : FillReport) : Prop :=
  ∀ issue ∈ r.issues, issue.rule ≠ .persistenceFailure

instance (r : FillReport) : Decidable r.AllWritten :=
  inferInstanceAs (Decidable (∀ issue ∈ r.issues, issue.rule ≠ .persistenceFailure))

/-- All that filling the file of one language can do: note that it lacks nothing, or write what it
had and a text for each entry that it lacked. -/
theorem fillOne_cases (o : Orchestra) (options : Options) (root : String) (source : Catalog)
    (s : Orchestra.State) (lang : String) :
    (missing source (readOrEmpty s.tree (options.localePath root lang)) = [] ∧
      o.fillOne options root source s lang =
        { s with report := { s.report with upToDate := s.report.upToDate ++ [lang] } }) ∨
    (missing source (readOrEmpty s.tree (options.localePath root lang)) ≠ [] ∧
      (o.fillOne options root source s lang).report.upToDate = s.report.upToDate ∧
      s.report.issues <+: (o.fillOne options root source s lang).report.issues ∧
      ∃ values, values.length =
          (missing source (readOrEmpty s.tree (options.localePath root lang))).length ∧
        ∃ failure, write s.tree (options.localePath root lang)
            (filled source (readOrEmpty s.tree (options.localePath root lang)) values) =
              ((o.fillOne options root source s lang).tree, failure) ∧
          (failure = none → (o.fillOne options root source s lang).report.filled =
            s.report.filled ++ [⟨lang, options.localePath root lang,
              (missing source (readOrEmpty s.tree (options.localePath root lang))).length⟩]) ∧
          (failure ≠ none → ¬(o.fillOne options root source s lang).report.AllWritten)) := by
  simp only [fillOne]
  by_cases hnone : missing source (readOrEmpty s.tree (options.localePath root lang)) = []
  · exact Or.inl ⟨hnone, by simp [hnone]⟩
  · refine Or.inr ⟨hnone, ?_⟩
    simp only [List.isEmpty_iff, hnone, if_false]
    -- whatever the translator answers, there is a text for each entry that is missing
    generalize hgot : o.translate _ _ _ _ = got
    have hlength : got.texts.length =
        (missing source (readOrEmpty s.tree (options.localePath root lang))).length := by
      rw [← hgot, length_texts_translate, List.length_map]
    generalize hwrite : write _ _ _ = result
    obtain ⟨u, _ | e⟩ := result
    · exact ⟨rfl, List.prefix_append _ _, got.texts, hlength, none, hwrite, fun _ => rfl,
        fun h => absurd rfl h⟩
    · refine ⟨rfl, ?_, got.texts, hlength, some e, hwrite, fun h => (by cases h), ?_⟩
      · exact (List.prefix_append _ _).trans (List.prefix_append _ _)
      · -- the failure is the last issue
        intro _ hwritten
        exact hwritten _ (List.mem_append_right _ List.mem_cons_self) rfl

/-- What filling does when the file can be written. -/
theorem fillOne_of_allWritten {s : Orchestra.State} {lang : String}
    (hwritten : (o.fillOne options root source s lang).report.AllWritten) :
    (missing source (readOrEmpty s.tree (options.localePath root lang)) = [] ∧
      o.fillOne options root source s lang =
        { s with report := { s.report with upToDate := s.report.upToDate ++ [lang] } }) ∨
    (missing source (readOrEmpty s.tree (options.localePath root lang)) ≠ [] ∧
      (o.fillOne options root source s lang).report.upToDate = s.report.upToDate ∧
      (o.fillOne options root source s lang).report.filled =
        s.report.filled ++ [⟨lang, options.localePath root lang,
          (missing source (readOrEmpty s.tree (options.localePath root lang))).length⟩] ∧
      ∃ values, values.length =
          (missing source (readOrEmpty s.tree (options.localePath root lang))).length ∧
        write s.tree (options.localePath root lang)
            (filled source (readOrEmpty s.tree (options.localePath root lang)) values) =
          ((o.fillOne options root source s lang).tree, none)) := by
  rcases fillOne_cases o options root source s lang with hnone |
    ⟨hsome, hupToDate, -, values, hlength, failure, hwrite, hlisted, hfailed⟩
  · exact Or.inl hnone
  · -- a failure would have left the language out of what is written
    obtain rfl : failure = none := by
      by_contra hfailure
      exact hfailed hfailure hwritten
    exact Or.inr ⟨hsome, hupToDate, hlisted rfl, values, hlength, hwrite⟩

/-- A language adds issues behind those that are there. -/
theorem issues_fillOne (s : Orchestra.State) (lang : String) :
    s.report.issues <+: (o.fillOne options root source s lang).report.issues := by
  rcases fillOne_cases o options root source s lang with ⟨-, heq⟩ | ⟨-, -, hissues, -⟩
  · have hsame : (o.fillOne options root source s lang).report.issues = s.report.issues := by
      rw [heq]
    exact hsame ▸ List.prefix_rfl
  · exact hissues

/-- Filling a language keeps kinds. -/
theorem keepsKinds_fillOne (s : Orchestra.State) (lang : String) :
    KeepsKinds s.tree (o.fillOne options root source s lang).tree := by
  rcases fillOne_tree o source s lang with hsame | ⟨values, hwritten⟩
  · rw [hsame]
    exact .refl _
  · rw [hwritten]
    exact keepsKinds_write _ _ _

/-- What stood at a place that is not that of the language stands there still, unless a directory
was made there. -/
theorem entry?_fillOne_of_ne {s : Orchestra.State} {lang : String} {q : Place} {c : Catalog}
    (hne : Path.place (options.localePath root lang) ≠ q) (hspells : SpellsAt s.tree q c)
    (hfree : (o.fillOne options root source s lang).tree.isDirectoryAt q = false) :
    FileTree.entry? (o.fillOne options root source s lang).tree q = s.tree.entry? q := by
  -- the files elsewhere are the same, and no directory is made at a place that is free
  have hsame := sameFiles_fillOne o source s lang q (Ne.symm hne)
  cases hafter : FileTree.entry? (o.fillOne options root source s lang).tree q with
  | none =>
    cases hbefore : s.tree.entry? q with
    | none => rfl
    | some e =>
      rw [SpellsAt, hbefore] at hspells
      cases hspells
      have hstill := (hsame _).mpr hbefore
      rw [hafter] at hstill
      cases hstill
  | some e =>
    cases e with
    | directory => simp [isDirectoryAt, hafter] at hfree
    | file f => exact ((hsame f).mp hafter).symm

/-- What one language makes of the file at a place: its own file is filled, and another one stays as
it is. -/
theorem kept_step {s : Orchestra.State} {lang : String} {q : Place} {c : Catalog}
    (hshows : s.tree.Shows (options.localePath root lang))
    (hwritten : (o.fillOne options root source s lang).report.AllWritten)
    (hfree : (o.fillOne options root source s lang).tree.isDirectoryAt q = false)
    (hspells : SpellsAt s.tree q c) :
    ∃ c', SpellsAt (o.fillOne options root source s lang).tree q c' ∧
      ((Path.place (options.localePath root lang) ≠ q ∧ c' = c) ∨ Kept source c c') := by
  by_cases hq : Path.place (options.localePath root lang) = q
  · -- the language reads the file that stands at the place
    have hread : readOrEmpty s.tree (options.localePath root lang) = c := by
      apply Spells.readOrEmpty_eq
      rw [hshows, hq]
      exact hspells
    rcases fillOne_of_allWritten hwritten with ⟨hnone, heq⟩ | ⟨-, -, -, values, hlength, hwrite⟩
    · rw [hread] at hnone
      rw [heq]
      exact ⟨c, hspells, Or.inr (kept_of_missing_eq_nil hnone)⟩
    · rw [hread] at hlength hwrite
      refine ⟨filled source c values, ?_, Or.inr (kept_filled hlength)⟩
      rw [SpellsAt, ← hq, (lookup?_of_write hwrite).2]
      exact spells_encode _
  · refine ⟨c, ?_, Or.inl ⟨hq, rfl⟩⟩
    rw [SpellsAt, entry?_fillOne_of_ne hq hspells hfree]
    exact hspells

/-- A language that could be filled has a file afterwards, if there is anything in the sources. -/
theorem exists_file_fillOne {s : Orchestra.State} {lang : String} (hsource : source.keys ≠ [])
    (hwritten : (o.fillOne options root source s lang).report.AllWritten) :
    ∃ f, FileTree.entry? (o.fillOne options root source s lang).tree
      (Path.place (options.localePath root lang)) = some (.file f) := by
  rcases fillOne_of_allWritten hwritten with ⟨hnone, heq⟩ | ⟨-, -, -, values, -, hwrite⟩
  · -- the texts that it has were read from a file
    obtain ⟨k, hk⟩ := List.exists_mem_of_ne_nil _ hsource
    obtain ⟨v, hv⟩ := exists_text_of_missing_eq_nil hnone hk
    obtain ⟨c, hread, -⟩ := get?_readOrEmpty_eq_some_iff.mp hv
    rw [Locale.read] at hread
    cases htext : s.tree.readText? (options.localePath root lang) with
    | none => simp [htext] at hread
    | some text =>
      obtain ⟨place, hplace, hentry, -⟩ := readText?_eq_some_iff.mp htext
      rw [heq, ← place?_eq_place hplace]
      exact ⟨_, hentry⟩
  · exact ⟨_, (lookup?_of_write hwrite).2⟩

/-! ## All languages -/

/-- What holds of each language in the state in which it is reached. -/
def AtEach (o : Orchestra) (options : Options) (root : String) (source : Catalog)
    (p : Orchestra.State → String → Prop) : List String → Orchestra.State → Prop
  | [], _ => True
  | lang :: langs, s => p s lang ∧ AtEach o options root source p langs
      (o.fillOne options root source s lang)

instance decidableAtEach (o : Orchestra) (options : Options) (root : String) (source : Catalog)
    (p : Orchestra.State → String → Prop) [∀ s lang, Decidable (p s lang)] :
    ∀ langs s, Decidable (AtEach o options root source p langs s)
  | [], _ => isTrue trivial
  | lang :: langs, s =>
    have := decidableAtEach o options root source p langs (o.fillOne options root source s lang)
    inferInstanceAs (Decidable (p s lang ∧ _))

/-- Some languages add issues behind those that are there. -/
theorem issues_foldl_fillOne (langs : List String) (s : Orchestra.State) :
    s.report.issues <+: (langs.foldl (o.fillOne options root source) s).report.issues := by
  induction langs generalizing s with
  | nil => exact List.prefix_rfl
  | cons lang langs ih => exact (issues_fillOne s lang).trans (ih _)

/-- If every language was written, so were the first ones. -/
theorem allWritten_of_foldl {langs : List String} {s : Orchestra.State}
    (h : (langs.foldl (o.fillOne options root source) s).report.AllWritten) :
    s.report.AllWritten :=
  fun issue hissue => h issue ((issues_foldl_fillOne langs s).subset hissue)

/-- Filling some languages keeps kinds. -/
theorem keepsKinds_foldl_fillOne (langs : List String) (s : Orchestra.State) :
    KeepsKinds s.tree (langs.foldl (o.fillOne options root source) s).tree := by
  induction langs generalizing s with
  | nil => exact .refl _
  | cons lang langs ih => exact (keepsKinds_fillOne s lang).trans (ih _)

/-- Nothing is made a directory that is none in the end. -/
theorem not_isDirectoryAt_of_foldl {langs : List String} {s : Orchestra.State} {q : Place}
    (h : (langs.foldl (o.fillOne options root source) s).tree.isDirectoryAt q = false) :
    s.tree.isDirectoryAt q = false := by
  rw [← Bool.not_eq_true] at h ⊢
  exact fun hdir => h ((keepsKinds_foldl_fillOne langs s).dirs q hdir)

/-- With nothing in the sources no file is touched. -/
theorem tree_foldl_of_nil (hsource : source.keys = []) (langs : List String)
    (s : Orchestra.State) :
    (langs.foldl (o.fillOne options root source) s).tree = s.tree := by
  -- nothing can be missing from any target, so nothing is written
  have hnone : ∀ target, missing source target = [] := by
    intro target
    unfold missing
    rw [List.map_eq_nil_iff.mp hsource]
    rfl
  induction langs generalizing s with
  | nil => rfl
  | cons lang langs ih =>
    rw [List.foldl_cons, ih]
    rcases fillOne_cases o options root source s lang with ⟨-, heq⟩ | ⟨hsome, -⟩
    · rw [heq]
    · exact absurd (hnone _) hsome

/-- After a run in which every file could be written, no directory stands in the place of a file
that was in order. -/
theorem not_isDirectoryAt_foldl {langs : List String} {s : Orchestra.State} {lang : String}
    {c : Catalog} (hwritten : (langs.foldl (o.fillOne options root source) s).report.AllWritten)
    (hlang : lang ∈ langs)
    (hspells : SpellsAt s.tree (Path.place (options.localePath root lang)) c) :
    (langs.foldl (o.fillOne options root source) s).tree.isDirectoryAt
      (Path.place (options.localePath root lang)) = false := by
  by_cases hsource : source.keys = []
  · rw [tree_foldl_of_nil hsource]
    exact hspells.not_isDirectoryAt
  · -- the language leaves a file behind, and the rest of the run leaves it a file
    obtain ⟨before, after, rfl⟩ := List.append_of_mem hlang
    rw [List.foldl_append, List.foldl_cons] at hwritten ⊢
    obtain ⟨f, hf⟩ := exists_file_fillOne hsource (allWritten_of_foldl hwritten)
    obtain ⟨g, hg⟩ := (keepsKinds_foldl_fillOne after _).files _ _ hf
    rw [isDirectoryAt, hg]
    rfl

/-- What a run makes of the file at a place: it is filled when the place is that of a language, and
it stays as it is otherwise. -/
theorem kept_foldl {langs : List String} {s : Orchestra.State} {q : Place} {c : Catalog}
    (hshows : AtEach o options root source
      (fun s lang => s.tree.Shows (options.localePath root lang)) langs s)
    (hwritten : (langs.foldl (o.fillOne options root source) s).report.AllWritten)
    (hfree : (langs.foldl (o.fillOne options root source) s).tree.isDirectoryAt q = false)
    (hspells : SpellsAt s.tree q c) :
    ∃ c', SpellsAt (langs.foldl (o.fillOne options root source) s).tree q c' ∧
      (((∀ lang ∈ langs, Path.place (options.localePath root lang) ≠ q) ∧ c' = c) ∨
        Kept source c c') := by
  -- on the languages; what the first one leaves at the place is what the others start from
  induction langs generalizing s c with
  | nil => exact ⟨c, hspells, Or.inl ⟨by simp, rfl⟩⟩
  | cons lang langs ih =>
    rw [List.foldl_cons] at hwritten hfree ⊢
    obtain ⟨c₁, hspells₁, hstep⟩ := kept_step hshows.1 (allWritten_of_foldl hwritten)
      (not_isDirectoryAt_of_foldl hfree) hspells
    obtain ⟨c₂, hspells₂, hrun⟩ := ih hshows.2 hwritten hfree hspells₁
    refine ⟨c₂, hspells₂, ?_⟩
    rcases hstep with ⟨hne, rfl⟩ | hkept
    · rcases hrun with ⟨hothers, rfl⟩ | hkept'
      · exact Or.inl ⟨by simpa using ⟨hne, hothers⟩, rfl⟩
      · exact Or.inr hkept'
    · rcases hrun with ⟨-, rfl⟩ | hkept'
      · exact Or.inr hkept
      · exact Or.inr (hkept.trans hkept')

/-- How a language is listed whose file has some entries when it is reached: as up to date, without
a change to any file, when it lacks nothing, and with the number of entries that it lacks
otherwise. -/
structure Listed (source target : Catalog) (lang path : String) (s s' : Orchestra.State) :
    Prop where
  upToDate : lacking source target = 0 → s'.tree = s.tree ∧
    s'.report.upToDate = s.report.upToDate ++ [lang] ∧ s'.report.filled = s.report.filled
  filled : lacking source target ≠ 0 → s'.report.upToDate = s.report.upToDate ∧
    s'.report.filled = s.report.filled ++ [⟨lang, path, lacking source target⟩]

/-- A language that is written is listed with what it lacked. -/
theorem listed_fillOne {s : Orchestra.State} {lang : String}
    (hwritten : (o.fillOne options root source s lang).report.AllWritten) :
    Listed source (readOrEmpty s.tree (options.localePath root lang)) lang
      (options.localePath root lang) s (o.fillOne options root source s lang) := by
  rcases fillOne_of_allWritten hwritten with ⟨hnone, heq⟩ | ⟨hsome, hupToDate, hlisted, -⟩
  · rw [heq]
    refine ⟨fun _ => ⟨rfl, rfl, rfl⟩, fun hlacking => ?_⟩
    rw [← length_missing, hnone] at hlacking
    exact absurd rfl hlacking
  · refine ⟨fun hlacking => ?_, fun _ => ⟨hupToDate, ?_⟩⟩
    · rw [← length_missing, List.length_eq_zero_iff] at hlacking
      exact absurd hlacking hsome
    · rw [hlisted, length_missing]

/-- Languages that are written are listed one by one. -/
theorem listed_foldl {langs : List String} {s : Orchestra.State}
    (hshows : AtEach o options root source
      (fun s lang => s.tree.Shows (options.localePath root lang)) langs s)
    (hwritten : (langs.foldl (o.fillOne options root source) s).report.AllWritten)
    (hspells : ∀ lang ∈ langs,
      ∃ c, SpellsAt s.tree (Path.place (options.localePath root lang)) c) :
    AtEach o options root source (fun s lang => ∃ target,
      SpellsAt s.tree (Path.place (options.localePath root lang)) target ∧
        Listed source target lang (options.localePath root lang) s
          (o.fillOne options root source s lang)) langs s := by
  -- by induction on the languages; each write shows the file to the later ones
  induction langs generalizing s with
  | nil => trivial
  | cons lang langs ih =>
    constructor
    · obtain ⟨target, htarget⟩ := hspells lang List.mem_cons_self
      have hread : readOrEmpty s.tree (options.localePath root lang) = target := by
        apply Spells.readOrEmpty_eq
        rw [hshows.1]
        exact htarget
      refine ⟨target, htarget, ?_⟩
      rw [← hread]
      exact listed_fillOne (allWritten_of_foldl hwritten)
    · -- the files of the other languages are in order still when they are reached
      refine ih hshows.2 hwritten ?_
      intro lang' hlang'
      have hmem : lang' ∈ lang :: langs := List.mem_cons_of_mem _ hlang'
      obtain ⟨c, hc⟩ := hspells lang' hmem
      have hfree := not_isDirectoryAt_foldl hwritten hmem hc
      rw [List.foldl_cons] at hfree
      obtain ⟨c', hc', -⟩ := kept_step hshows.1 (allWritten_of_foldl hwritten)
        (not_isDirectoryAt_of_foldl hfree) hc
      exact ⟨c', hc'⟩

/-- A run over all languages, each of which sees the file at its place when it is reached, and each
of which can write it. Every file that was missing or an object of texts is one of its kind
afterwards and keeps its translations, and each language is listed by what its file lacked when it
was reached. -/
theorem fill_keeps {d : Dispatch} {t : FileTree} {old : String → Catalog}
    (hfiles : ∀ lang ∈ options.targetLangs,
      SpellsAt t (Path.place (options.localePath root lang)) (old lang))
    (hshows : AtEach o options root source
      (fun s lang => s.tree.Shows (options.localePath root lang)) options.targetLangs
      { dispatch := d, tree := t })
    (hwritten : (o.fill d t options root source).report.AllWritten) :
    (∀ lang ∈ options.targetLangs, ∃ new,
      SpellsAt (o.fill d t options root source).tree
        (Path.place (options.localePath root lang)) new ∧ Kept source (old lang) new) ∧
    AtEach o options root source (fun s lang => ∃ target,
      SpellsAt s.tree (Path.place (options.localePath root lang)) target ∧
        Listed source target lang (options.localePath root lang) s
          (o.fillOne options root source s lang)) options.targetLangs
      { dispatch := d, tree := t } := by
  -- what the run keeps, then what each turn lists
  constructor
  · intro lang hlang
    have hspells := hfiles lang hlang
    obtain ⟨new, hnew, hothers | hkept⟩ := kept_foldl hshows hwritten
      (not_isDirectoryAt_foldl hwritten hlang hspells) hspells
    · exact absurd rfl (hothers.1 lang hlang)
    · exact ⟨new, hnew, hkept⟩
  · exact listed_foldl hshows hwritten fun lang hlang => ⟨old lang, hfiles lang hlang⟩

end Run

/-! ## Two runs -/

/-- A project in which one language has a translation. -/
def greetedProject : FileTree :=
  ⟨[(["p"], .directory), (["p", "src"], .directory), (["p", "src", "i18n"], .directory),
    (["p", "src", "i18n", "en.json"], .file (.text (Locale.encode (.ofList [("k", "Hello")]))))]⟩

/-- A translator that puts the language before each batch. -/
def prefixing : Orchestra where
  translator :=
    { name := "prefixing"
      answer := fun _ r => .ok (r.toLang ++ ":" ++ r.text) }

/-- A language that is repeated, with another one in between. -/
def repeating : Options :=
  { targetLangs := ["en", "fr", "en"] }

/-- A project with a language twice, whose second turn finds what the first has written. -/
theorem fill_keeps_repeated :
    ∃ new, SpellsAt (prefixing.fill {} greetedProject repeating "/p"
        (.ofList [("k", "你好"), ("m", "世界")])).tree ["p", "src", "i18n", "en.json"] new ∧
      new.keys = ["k", "m"] ∧ new.get? "k" = some "Hello" := by
  have hplace : Path.place (repeating.localePath "/p" "en") =
      ["p", "src", "i18n", "en.json"] := by
    decide +kernel
  have hfrench : greetedProject.entry? (Path.place (repeating.localePath "/p" "fr")) = none := by
    decide +kernel
  -- one locale is there and one is not, and the first is asked for twice
  have hfiles : ∀ lang ∈ repeating.targetLangs,
      SpellsAt greetedProject (Path.place (repeating.localePath "/p" lang))
        (if lang = "en" then .ofList [("k", "Hello")] else .empty) := by
    intro lang hlang
    by_cases hen : lang = "en"
    · rw [if_pos hen, hen, hplace]
      exact spells_encode _
    · obtain rfl : lang = "fr" := by simpa [repeating, hen] using hlang
      rw [if_neg hen, SpellsAt, hfrench]
      exact .missing
  have hshows : AtEach prefixing repeating "/p" (.ofList [("k", "你好"), ("m", "世界")])
      (fun s lang => s.tree.Shows (repeating.localePath "/p" lang)) repeating.targetLangs
      { dispatch := {}, tree := greetedProject } := by
    decide +kernel
  have hwritten : (prefixing.fill {} greetedProject repeating "/p"
      (.ofList [("k", "你好"), ("m", "世界")])).report.AllWritten := by
    decide +kernel
  obtain ⟨new, hnew, hkept⟩ :=
    (fill_keeps hfiles hshows hwritten).1 "en" List.mem_cons_self
  rw [hplace] at hnew
  refine ⟨new, hnew, ?_, ?_⟩
  · rw [hkept.keys_eq]
    decide +kernel
  · exact hkept.texts "k" "Hello" (by decide +kernel) (Or.inl (by decide))

/-- Filling keeps the translations of every file that was missing or an object of texts, when every
file can be written. -/
def KeepsTranslations (o : Orchestra) (d : Dispatch) (t : FileTree) (options : Options)
    (root : String) (source : Catalog) : Prop :=
  ∀ old : String → Catalog,
    (∀ lang ∈ options.targetLangs,
      SpellsAt t (Path.place (options.localePath root lang)) (old lang)) →
    (o.fill d t options root source).report.AllWritten →
    ∀ lang ∈ options.targetLangs, ∃ new,
      SpellsAt (o.fill d t options root source).tree
        (Path.place (options.localePath root lang)) new ∧ Kept source (old lang) new

/-- The file of one language reached twice, the second time through a directory that is missing. -/
def detouring : Options :=
  { targetLangs := ["en", "x/../en"] }

/-- On the detour no file is found, so that everything is translated anew. -/
theorem not_keepsTranslations_detour :
    ¬KeepsTranslations prefixing {} greetedProject detouring "/p" (.ofList [("k", "你好")]) := by
  intro hkeeps
  have hplaces : ∀ lang ∈ detouring.targetLangs,
      Path.place (detouring.localePath "/p" lang) = ["p", "src", "i18n", "en.json"] := by
    decide +kernel
  have hwritten : (prefixing.fill {} greetedProject detouring "/p"
      (.ofList [("k", "你好")])).report.AllWritten := by
    decide +kernel
  obtain ⟨new, hnew, hkept⟩ := hkeeps (fun _ => .ofList [("k", "Hello")])
    (fun lang hlang => by rw [hplaces lang hlang]; exact spells_encode _) hwritten "en"
    List.mem_cons_self
  have hstays : new.get? "k" = some "Hello" :=
    hkept.texts "k" "Hello" (by decide +kernel) (Or.inl (by decide))
  -- the file can be read in the end, and it has another text
  have hlookup : (prefixing.fill {} greetedProject detouring "/p"
      (.ofList [("k", "你好")])).tree.Shows (detouring.localePath "/p" "en") := by
    decide +kernel
  rw [SpellsAt, ← hlookup] at hnew
  have hread : (readOrEmpty (prefixing.fill {} greetedProject detouring "/p"
      (.ofList [("k", "你好")])).tree (detouring.localePath "/p" "en")).get? "k" =
        some "x/../en:你好" := by
    decide +kernel
  rw [hnew.readOrEmpty_eq, hstays] at hread
  exact absurd hread (by decide)

end TextHarvest
