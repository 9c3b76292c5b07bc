import TextHarvest.Proofs.Files.Tree
import TextHarvest.Proofs.Locale.RoundTrip
import TextHarvest.Translator.Locales

/-!
# What becomes of an entry of a locale file

An entry of a locale file survives whatever is written afterwards, as long as a catalog that is
written to the same place has the entry too. Filling and cleaning the files of other languages are
such writes: a language that shares the file finds the entry there, does not translate it again
because its text is not empty, and does not drop it because the record of the sources has its key.

Main results:

* `get?_readOrEmpty_of_write` — a written file reads back as the catalog.
* `get?_readOrEmpty_of_writeSource` — the record of the sources has every entry that was found.
* `get?_readOrEmpty_of_foldl_fillOne` and `get?_readOrEmpty_of_clean` — filling and cleaning keep
  an entry of the record of the sources.
-/

namespace TextHarvest

namespace Locale

/-! ## Reading -/

/-- An entry is read only from a file that can be read. -/
theorem get?_readOrEmpty_eq_some_iff {t : FileTree} {path k v : String} :
    (readOrEmpty t path).get? k = some v ↔ ∃ c, read t path = .ok c ∧ c.get? k = some v := by
  rw [readOrEmpty]
  cases hread : read t path with
  | ok c => simp
  | error e => simp

/-- The paths of locale files name files. -/
theorem getLast?_localePath (o : Options) (root lang : String) :
    (o.localePath root lang).toList.getLast? ≠ some '/' := by
  have hjson : ∀ pre : List Char, (pre ++ ".json".toList).getLast? = some 'n' := by
    intro pre
    rw [List.getLast?_append]
    rfl
  obtain ⟨pre, hpre⟩ : ∃ pre, (o.localePath root lang).toList = pre ++ ".json".toList := by
    rw [Options.localePath, Options.localeFileName, Path.join]
    split
    · -- an absolute file name stands alone
      exact ⟨_, String.toList_append⟩
    · split
      · -- the directory ends in a slash
        exact ⟨_, by rw [String.toList_append, String.toList_append, ← List.append_assoc]⟩
      · -- a slash comes between the two
        refine ⟨(Path.join root o.outputPath).toList ++ "/".toList ++ (String.ofList
          (Text.substituteFrom Options.langPlaceholder lang.toList o.langFileName.toList 0)).toList,
          ?_⟩
        simp only [String.toList_append, List.append_assoc]
  rw [hpre, hjson]
  simp

/-- Paths that lead to the same place read the same catalog. -/
theorem readOrEmpty_eq_of_place? {t : FileTree} {p q : String} {place : Place}
    (hp : t.place? p = some place) (hq : t.place? q = some place)
    (hpslash : p.toList.getLast? ≠ some '/') (hqslash : q.toList.getLast? ≠ some '/') :
    readOrEmpty t p = readOrEmpty t q := by
  have htext : t.readText? p = t.readText? q := by
    rw [Option.ext_iff]
    intro s
    rw [FileTree.readText?_eq_some_iff, FileTree.readText?_eq_some_iff]
    simp [hp, hq, hpslash, hqslash]
  rw [readOrEmpty, readOrEmpty, read, read, htext]
  cases t.readText? q with
  | none => rfl
  | some s =>
    -- the path of a file shows only in the errors about it
    by_cases hblank : Text.isBlank s = true
    · simp [decode, hblank]
    · cases hjson : Json.parse? s with
      | none => simp [decode, hblank, hjson]
      | some json => cases json <;> simp [decode, hblank, hjson]

/-- A path from which an entry is read leads to its place. -/
theorem place?_of_get?_readOrEmpty {t : FileTree} {path k v : String}
    (h : (readOrEmpty t path).get? k = some v) : t.place? path = some (Path.place path) := by
  obtain ⟨c, hread, -⟩ := get?_readOrEmpty_eq_some_iff.mp h
  rw [read] at hread
  cases htext : t.readText? path with
  | none => simp [htext] at hread
  | some s =>
    obtain ⟨place, hplace, -⟩ := FileTree.readText?_eq_some_iff.mp htext
    rw [hplace, FileTree.place?_eq_place hplace]

/-! ## Writing -/

theorem read_of_readText? {t : FileTree} {path : String} {c : Catalog}
    (h : t.readText? path = some (encode c)) : read t path = .ok c := by
  rw [read, h]
  exact decode_encode path c

/-- Where only the tree is in the way, the directory is made if it can be, and then the file. -/
theorem write_eq (t : FileTree) (path : String) (c : Catalog) : write t path c =
    match t.createDirs ((Path.parent? path).getD "") with
    | (t, some fault) => (t, some (.noDirectory ((Path.parent? path).getD "") fault))
    | (t, none) =>
      match t.write? path (.text (encode c)) with
      | none => (t, some (.unwritable path (t.writeFault path)))
      | some t => (t, none) := by
  simp only [write, writeOn, Disk.willing]
  obtain ⟨made, _ | fault⟩ := t.createDirs ((Path.parent? path).getD "")
  · dsimp only
    cases made.write? path (.text (encode c)) with
    | none => rfl
    | some u => rfl
  · rfl

/-- Writing a locale file is making its directory and writing the file. -/
theorem exists_of_write {t u : FileTree} {path : String} {c : Catalog}
    (h : write t path c = (u, none)) :
    ∃ made, t.createDirs ((Path.parent? path).getD "") = (made, none) ∧
      made.write? path (.text (encode c)) = some u := by
  rw [write_eq] at h
  split at h
  · cases h
  · rename_i made hmade
    split at h
    · cases h
    · rename_i hwrite
      obtain rfl := (Prod.mk.inj h).1
      exact ⟨made, hmade, hwrite⟩

/-- The text of a locale file that was written. -/
theorem readText?_of_write {t u : FileTree} {path : String} {c : Catalog}
    (h : write t path c = (u, none)) : u.readText? path = some (encode c) := by
  obtain ⟨made, -, hwrite⟩ := exists_of_write h
  have hplace := (FileTree.write?_eq_some hwrite).1
  exact FileTree.readText?_of_write?_same hwrite hplace rfl (FileTree.getLast?_ne_of_write? hwrite)

/-- A file that was written reads back as the catalog. -/
theorem read_of_write {t u : FileTree} {path : String} {c : Catalog}
    (h : write t path c = (u, none)) : read u path = .ok c :=
  read_of_readText? (readText?_of_write h)

theorem get?_readOrEmpty_of_readText? {t u : FileTree} {path k v : String}
    (hkeep : ∀ s, t.readText? path = some s → u.readText? path = some s)
    (h : (readOrEmpty t path).get? k = some v) : (readOrEmpty u path).get? k = some v := by
  obtain ⟨c, hread, hget⟩ := get?_readOrEmpty_eq_some_iff.mp h
  refine get?_readOrEmpty_eq_some_iff.mpr ⟨c, ?_, hget⟩
  rw [read] at hread ⊢
  cases htext : t.readText? path with
  | none => simp [htext] at hread
  | some s =>
    rw [hkeep s htext]
    rw [htext] at hread
    exact hread

/-- An entry of a locale file survives the writing of a file, unless the file is its own and lacks
the entry. -/
theorem get?_readOrEmpty_of_write {t : FileTree} {path src k v : String} {c : Catalog}
    (hslash : src.toList.getLast? ≠ some '/')
    (hshared : Path.place path = Path.place src → c.get? k = some v)
    (h : (readOrEmpty t src).get? k = some v) :
    (readOrEmpty (write t path c).1 src).get? k = some v := by
  have hmid := get?_readOrEmpty_of_readText?
    (fun s hs => FileTree.readText?_of_createDirs t ((Path.parent? path).getD "") hs) h
  rw [write_eq]
  split
  · rename_i made fault hmade
    rw [hmade] at hmid
    exact hmid
  · rename_i made hmade
    rw [hmade] at hmid
    split
    · exact hmid
    · rename_i hwrite
      by_cases hplace : Path.place path = Path.place src
      · -- the file was overwritten, with a catalog that has the entry
        have htext := FileTree.readText?_of_write?_same hwrite (place?_of_get?_readOrEmpty hmid)
          hplace.symm hslash
        exact get?_readOrEmpty_eq_some_iff.mpr ⟨c, read_of_readText? htext, hshared hplace⟩
      · exact get?_readOrEmpty_of_readText?
          (fun s hs => FileTree.readText?_of_write?_other hwrite (Ne.symm hplace) hs) hmid

/-- Writing a locale file takes no directory away. -/
theorem keepsDirs_write (t : FileTree) (path : String) (c : Catalog) :
    t.KeepsDirs (write t path c).1 := by
  have hmid := (FileTree.makeDirs_keeps
    (Path.components ((Path.parent? path).getD "")) [] false t).1
  rw [write_eq, FileTree.createDirs]
  generalize FileTree.makeDirs _ _ _ _ = result at hmid ⊢
  obtain ⟨made, _ | fault⟩ := result
  · dsimp only
    split
    · exact hmid
    · rename_i hwrite
      exact hmid.trans (FileTree.keepsDirs_of_write? hwrite)
  · exact hmid

/-- The record of the sources has every entry that was found. -/
theorem get?_readOrEmpty_of_writeSource {t u : FileTree} {path k v : String} {found : Catalog}
    {additive : Bool} {w : Written} (h : writeSource t path found additive = (u, .ok w))
    (hfound : found.get? k = some v) :
    (readOrEmpty u path).get? k = some v := by
  have hdata : (updated (readOrEmpty t path) found additive).get? k = some v := by
    rw [updated, Catalog.get?_merge, hfound]
    rfl
  simp only [writeSource] at h
  split at h
  · -- there is something to write
    split at h
    · rename_i hwrite
      obtain rfl := (Prod.mk.inj h).1
      exact get?_readOrEmpty_eq_some_iff.mpr ⟨_, read_of_write hwrite, hdata⟩
    · simp at h
  · -- the file has all texts already and is left alone
    rename_i hsame
    obtain rfl := (Prod.mk.inj h).1
    simp only [Bool.or_eq_true, Bool.not_eq_true', not_or, Bool.not_eq_false] at hsame
    exact Catalog.get?_eq_some_of_sameTexts hsame.1 hdata

end Locale

/-! ## Other languages -/

/-- A path that leads to the file of another one can be followed to it. -/
def LeadsTo (t : FileTree) (path src : String) : Prop :=
  Path.place path = Path.place src → (t.place? path).isSome = true

/-- Where directories stay, a path can still be followed. -/
theorem LeadsTo.keepsDirs {t u : FileTree} {path src : String} (h : LeadsTo t path src)
    (hkeep : t.KeepsDirs u) : LeadsTo u path src := by
  intro hplace
  obtain ⟨place, hfollow⟩ := Option.isSome_iff_exists.mp (h hplace)
  rw [hkeep.place? hfollow]
  rfl

/-- A path at whose end something stands can be followed. -/
theorem leadsTo_of_pathExists {t : FileTree} {path : String} (h : t.pathExists path = true)
    (src : String) : LeadsTo t path src := by
  intro _
  rw [FileTree.pathExists, FileTree.lookup?] at h
  cases hplace : t.place? path with
  | none => simp [hplace] at h
  | some place => rfl

section Other

variable {o : Options} {root k v : String}

/-- A language that shares the file of the sources finds their entries in it. -/
theorem get?_readOrEmpty_of_shared {t : FileTree} {lang : String}
    (hleads : LeadsTo t (o.localePath root lang) (o.localePath root o.fromLang))
    (hplace : Path.place (o.localePath root lang) = Path.place (o.localePath root o.fromLang))
    (h : (Locale.readOrEmpty t (o.localePath root o.fromLang)).get? k = some v) :
    (Locale.readOrEmpty t (o.localePath root lang)).get? k = some v := by
  -- both paths can be followed, and they lead to one place
  have hfollow := Locale.place?_of_get?_readOrEmpty h
  obtain ⟨place, hfollowed⟩ := Option.isSome_iff_exists.mp (hleads hplace)
  have hsame : t.place? (o.localePath root lang) =
      some (Path.place (o.localePath root o.fromLang)) := by
    rw [hfollowed, FileTree.place?_eq_place hfollowed, hplace]
  rw [Locale.readOrEmpty_eq_of_place? hsame hfollow (Locale.getLast?_localePath o root lang)
    (Locale.getLast?_localePath o root o.fromLang)]
  exact h

/-- Filling translates only what a file lacks or has empty. -/
theorem not_mem_keys_missing {source target : Catalog} (hv : v ≠ "")
    (h : target.get? k = some v) : k ∉ (Orchestra.missing source target).map Prod.fst := by
  intro hmem
  obtain ⟨e, he, rfl⟩ := List.mem_map.mp hmem
  have hempty := (List.mem_filter.mp he).2
  simp [h, hv] at hempty

/-- Filling a file keeps its entries. -/
theorem get?_insertAll_missing {source target : Catalog} (hv : v ≠ "")
    (h : target.get? k = some v) (values : List String) :
    (target.insertAll (((Orchestra.missing source target).map Prod.fst).zip values)).get? k =
      some v := by
  -- a key that is filled in is one that was missing
  rw [Catalog.get?_insertAll_of_not_mem, h]
  intro hmem
  obtain ⟨e, he, rfl⟩ := List.mem_map.mp hmem
  exact not_mem_keys_missing hv h (List.of_mem_zip he).1

/-- Filling the file of a language is at most one writing of what was there and more. -/
theorem fillOne_tree (orchestra : Orchestra) (source : Catalog) (s : Orchestra.State)
    (lang : String) :
    (orchestra.fillOne o root source s lang).tree = s.tree ∨
      ∃ values, (orchestra.fillOne o root source s lang).tree =
        (Locale.write s.tree (o.localePath root lang)
          ((Locale.readOrEmpty s.tree (o.localePath root lang)).insertAll
            (((Orchestra.missing source (Locale.readOrEmpty s.tree (o.localePath root lang))).map
              Prod.fst).zip values))).1 := by
  simp only [Orchestra.fillOne]
  split
  · exact Or.inl rfl
  · generalize orchestra.translate _ _ _ _ = answer
    obtain ⟨d, values, issues⟩ := answer
    refine Or.inr ⟨values, ?_⟩
    generalize Locale.write _ _ _ = result
    obtain ⟨u, _ | e⟩ := result <;> rfl

/-- Filling the file of one language keeps the entries of the record of the sources. -/
theorem get?_readOrEmpty_of_fillOne {orchestra : Orchestra} {source : Catalog} {lang : String}
    {s : Orchestra.State}
    (hleads : LeadsTo s.tree (o.localePath root lang) (o.localePath root o.fromLang))
    (hv : v ≠ "")
    (h : (Locale.readOrEmpty s.tree (o.localePath root o.fromLang)).get? k = some v) :
    (Locale.readOrEmpty (orchestra.fillOne o root source s lang).tree
      (o.localePath root o.fromLang)).get? k = some v := by
  rcases fillOne_tree orchestra source s lang with hsame | ⟨values, hwritten⟩
  · rw [hsame]
    exact h
  · rw [hwritten]
    refine Locale.get?_readOrEmpty_of_write (Locale.getLast?_localePath o root o.fromLang) ?_ h
    intro hplace
    exact get?_insertAll_missing hv (get?_readOrEmpty_of_shared hleads hplace h) values

theorem keepsDirs_fillOne (orchestra : Orchestra) (source : Catalog) (s : Orchestra.State)
    (lang : String) : s.tree.KeepsDirs (orchestra.fillOne o root source s lang).tree := by
  rcases fillOne_tree orchestra source s lang with hsame | ⟨values, hwritten⟩
  · rw [hsame]
    exact .refl _
  · rw [hwritten]
    exact Locale.keepsDirs_write _ _ _

/-- Filling the files of some languages keeps the entries of the record of the sources. -/
theorem get?_readOrEmpty_of_foldl_fillOne {orchestra : Orchestra} {source : Catalog}
    {langs : List String} (hv : v ≠ "") {s : Orchestra.State}
    (hleads : ∀ lang ∈ langs,
      LeadsTo s.tree (o.localePath root lang) (o.localePath root o.fromLang))
    (h : (Locale.readOrEmpty s.tree (o.localePath root o.fromLang)).get? k = some v) :
    (Locale.readOrEmpty (langs.foldl (orchestra.fillOne o root source) s).tree
      (o.localePath root o.fromLang)).get? k = some v := by
  induction langs generalizing s with
  | nil => exact h
  | cons lang langs ih =>
    rw [List.foldl_cons]
    -- a path that can be followed before the turn of a language can be followed after it
    apply ih fun l hl =>
      (hleads l (List.mem_cons_of_mem _ hl)).keepsDirs (keepsDirs_fillOne orchestra source s lang)
    exact get?_readOrEmpty_of_fillOne (hleads lang List.mem_cons_self) hv h

/-- Cleaning the file of a language is at most one writing of what is left, where there is a
file. -/
theorem cleanOne_tree (source : Catalog) (state : FileTree × Locale.CleanReport)
    (lang : String) :
    (Locale.cleanOne o root source state lang).1 = state.1 ∨
      state.1.pathExists (o.localePath root lang) = true ∧
      (Locale.cleanOne o root source state lang).1 =
        (Locale.write state.1 (o.localePath root lang)
          (Locale.prune source (Locale.readOrEmpty state.1 (o.localePath root lang)))).1 := by
  obtain ⟨t, report⟩ := state
  simp only [Locale.cleanOne, Locale.cleanOneOn, Locale.write]
  split
  · rename_i hexists
    split
    · exact Or.inl rfl
    · refine Or.inr ⟨hexists, ?_⟩
      generalize Locale.writeOn _ _ _ _ = result
      obtain ⟨u, _ | e⟩ := result <;> rfl
  · exact Or.inl rfl

/-- Cleaning the file of one language keeps the entries of the record of the sources: a language
that shares the file is cleaned only when its path leads there. -/
theorem get?_readOrEmpty_of_cleanOne {source : Catalog} {lang : String}
    (hsource : source.contains k = true) (state : FileTree × Locale.CleanReport)
    (h : (Locale.readOrEmpty state.1 (o.localePath root o.fromLang)).get? k = some v) :
    (Locale.readOrEmpty (Locale.cleanOne o root source state lang).1
      (o.localePath root o.fromLang)).get? k = some v := by
  rcases cleanOne_tree source state lang with hsame | ⟨hexists, hwritten⟩
  · rw [hsame]
    exact h
  · rw [hwritten]
    refine Locale.get?_readOrEmpty_of_write (Locale.getLast?_localePath o root o.fromLang) ?_ h
    intro hplace
    exact (Catalog.get?_filter _ _).mpr
      ⟨get?_readOrEmpty_of_shared (leadsTo_of_pathExists hexists _) hplace h, hsource⟩

/-- Cleaning the files of some languages keeps the entries of the record of the sources. -/
theorem get?_readOrEmpty_of_foldl_cleanOne {source : Catalog} {langs : List String}
    (hsource : source.contains k = true) (state : FileTree × Locale.CleanReport)
    (h : (Locale.readOrEmpty state.1 (o.localePath root o.fromLang)).get? k = some v) :
    (Locale.readOrEmpty (langs.foldl (Locale.cleanOne o root source) state).1
      (o.localePath root o.fromLang)).get? k = some v := by
  induction langs generalizing state with
  | nil => exact h
  | cons lang langs ih =>
    rw [List.foldl_cons]
    exact ih _ (get?_readOrEmpty_of_cleanOne hsource state h)

variable {remark : String → String}

/-- Cleaning goes by the record of the sources. -/
theorem clean_of_read {t : FileTree} {c : Catalog}
    (hexists : t.pathExists (o.localePath root o.fromLang) = true)
    (hread : Locale.read t (o.localePath root o.fromLang) = .ok c) :
    Locale.clean remark t root o = o.targetLangs.foldl (Locale.cleanOne o root c) (t, {}) := by
  delta Locale.clean Locale.cleanOn
  simp only [hexists, hread, if_true]
  rfl

/-- Without a record of the sources, cleaning leaves all files alone. -/
theorem clean_of_not_pathExists {t : FileTree}
    (hexists : t.pathExists (o.localePath root o.fromLang) = false) :
    (Locale.clean remark t root o).1 = t := by
  delta Locale.clean Locale.cleanOn
  simp only [hexists, Bool.false_eq_true, if_false]

/-- Cleaning keeps the entries of the record of the sources. -/
theorem get?_readOrEmpty_of_clean {t : FileTree}
    (h : (Locale.readOrEmpty t (o.localePath root o.fromLang)).get? k = some v) :
    (Locale.readOrEmpty (Locale.clean remark t root o).1
      (o.localePath root o.fromLang)).get? k = some v := by
  obtain ⟨c, hread, hget⟩ := Locale.get?_readOrEmpty_eq_some_iff.mp h
  have hcontains : c.contains k = true := by
    rw [Catalog.contains, hget]
    rfl
  cases hexists : t.pathExists (o.localePath root o.fromLang) with
  | false =>
    rw [clean_of_not_pathExists hexists]
    exact h
  | true =>
    rw [clean_of_read hexists hread]
    exact get?_readOrEmpty_of_foldl_cleanOne hcontains (t, {}) h

end Other

end TextHarvest
