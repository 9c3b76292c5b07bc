import TextHarvest.Proofs.Locale.Frame

/-!
# What a locale file spells

A locale file that is in order is missing, or it is an object whose values are texts. `Spells` says
so of what stands in its place, and names the catalog: nothing stands for no entries, and an object
for its fields in order, a repeated name in its first place with its last text. Such a file loses
nothing when it is read, and what is written is again of this kind.

Main results:

* `Spells.readOrEmpty_eq` — a path to what spells a catalog reads that catalog.
* `lookup?_of_write` — a written file spells the catalog.
* `Spells.writeSource` — a record of the sources that is in order stays so, and it has what was
  found and, where nothing was found, what it had.
-/

namespace TextHarvest

/-! ## Blank texts -/

namespace Json

open Reader

theorem number?_of_isBlank {cs : List Char} (h : ∀ c ∈ cs, Chars.isBlank c = true)
    (negative : Bool) : number? negative cs = none := by
  have hdigits : cs.takeWhile Char.isDigit = [] := by
    cases cs with
    | nil => rfl
    | cons c cs =>
      apply List.takeWhile_cons_of_neg
      have hblank := h c List.mem_cons_self
      -- blanks lie outside the range of the digits
      simp only [Chars.isBlank, Bool.or_eq_true, Bool.and_eq_true, decide_eq_true_eq,
        beq_iff_eq] at hblank
      simp only [Char.isDigit, Bool.and_eq_true, decide_eq_true_eq, ge_iff_le]
      rintro ⟨hlow, hhigh⟩
      have hlow' : 48 ≤ c.toNat := hlow
      have hhigh' : c.toNat ≤ 57 := hhigh
      omega
  unfold number? digits
  simp [hdigits]

/-- No value is read from a blank text. -/
theorem value?_of_isBlank {cs : List Char} (h : ∀ c ∈ cs, Chars.isBlank c = true)
    (fuel depth : Nat) : value? fuel depth cs = none := by
  have hrest : ∀ c ∈ skipGaps cs, Chars.isBlank c = true := by
    intro c hc
    exact h c ((List.dropWhile_suffix _).subset hc)
  cases fuel with
  | zero => rfl
  | succ fuel =>
    rw [value?]
    generalize skipGaps cs = rest at hrest
    split
    -- the characters that open a value are no blanks
    any_goals exact absurd (hrest _ List.mem_cons_self) (by decide)
    exact number?_of_isBlank hrest false

/-- A text with a value is not blank. -/
theorem isBlank_eq_false_of_parse? {s : String} {j : Json} (h : parse? s = some j) :
    Text.isBlank s = false := by
  rw [← Bool.not_eq_true]
  intro hblank
  have hnone := value?_of_isBlank (List.all_eq_true.mp hblank) (2 * s.toList.length + 2) maxDepth
  rw [parse?, ofChars?, hnone] at h
  cases h

end Json

namespace Locale

/-! ## Files in order -/

/-- What stands where a locale file belongs is nothing or an object of texts, with these entries. -/
inductive Spells : Option FileEntry → Catalog → Prop
  | missing : Spells none .empty
  | object {s : String} {fields : List (String × Json)} {c : Catalog} :
    Json.parse? s = some (.obj fields) → Json.settle fields = c.entries.map Json.textField →
      Spells (some (.file (.text s))) c

/-- The fields of a catalog have distinct names. -/
theorem settle_texts (c : Catalog) :
    Json.settle (c.entries.map Json.textField) = c.entries.map Json.textField := by
  have hnames : (c.entries.map Json.textField).map Prod.fst = c.entries.map Prod.fst := by
    rw [List.map_map]
    rfl
  exact settle_of_nodup (hnames ▸ c.nodup_keys)

/-- An object with the entries of a catalog is decoded to it. -/
theorem decode_object {s : String} {fields : List (String × Json)} {c : Catalog}
    (hparse : Json.parse? s = some (.obj fields))
    (hfields : Json.settle fields = c.entries.map Json.textField) (path : String) :
    decode path s = .ok c := by
  -- fields that are settled stay as they are when they are settled again
  have hcatalog : ofFields fields = c := by
    rw [ofFields, hfields, ← settle_texts c, ← ofFields, ofFields_texts]
  rw [decode, if_neg (by simp [Json.isBlank_eq_false_of_parse? hparse]), hparse]
  simp only [hcatalog]

/-- An encoded catalog spells it. -/
theorem spells_encode (c : Catalog) : Spells (some (.file (.text (encode c)))) c :=
  .object (Json.parse?_indented c.entries) (settle_texts c)

/-- A path to what spells a catalog reads that catalog. -/
theorem Spells.readOrEmpty_eq {t : FileTree} {path : String} {c : Catalog}
    (h : Spells (t.lookup? path) c) : readOrEmpty t path = c := by
  generalize hentry : t.lookup? path = entry at h
  cases h with
  | missing => simp [readOrEmpty, read, FileTree.readText?, hentry]
  | object hparse hfields =>
    simp [readOrEmpty, read, FileTree.readText?, hentry, decode_object hparse hfields path]

/-- The file at a place is missing or an object of texts, with these entries. -/
def SpellsAt (t : FileTree) (place : Place) (c : Catalog) : Prop :=
  Spells ( t.entry? place) c

theorem SpellsAt.not_isDirectoryAt {t : FileTree} {place : Place} {c : Catalog}
    (h : SpellsAt t place c) : t.isDirectoryAt place = false := by
  unfold SpellsAt at h
  unfold FileTree.isDirectoryAt
  generalize t.entry? place = entry at h
  cases h <;> rfl

/-! ## Writing -/

/-- After a file was written it stands in its place, and its path leads there. -/
theorem lookup?_of_write {t u : FileTree} {path : String} {c : Catalog}
    (h : write t path c = (u, none)) :
    u.lookup? path = some (.file (.text (encode c))) ∧
      u.entry? (Path.place path) = some (.file (.text (encode c))) := by
  obtain ⟨made, -, hwrite⟩ := exists_of_write h
  -- a file was written, so the path has no slash behind it
  have hslash := FileTree.getLast?_ne_of_write? hwrite
  have hkeep := FileTree.keepsDirs_of_write? hwrite
  obtain ⟨hplace, hne, -, rfl⟩ := FileTree.write?_eq_some hwrite
  have hentry : FileTree.entry? (made.set (Path.place path) (.file (.text (encode c))))
      (Path.place path) = some (.file (.text (encode c))) := by
    rw [FileTree.entry?_set hne, if_pos rfl]
  refine ⟨?_, hentry⟩
  rw [FileTree.lookup?, hkeep.place? hplace, Option.bind_some, hentry]
  simp [hslash]

/-- Catalogs with the same texts are of one mind when one of them has all that the other has. -/
theorem get?_eq_of_sameTexts {old found : Catalog}
    (hsame : (updated old found true).sameTexts old = true) (k : String) :
    old.get? k = (found.get? k).or (old.get? k) := by
  cases hfound : found.get? k with
  | none => rfl
  | some v =>
    have hdata : (updated old found true).get? k = some v := by
      rw [updated, Catalog.get?_merge, hfound]
      rfl
    exact Catalog.get?_eq_some_of_sameTexts hsame hdata

/-- A record of the sources that is in order stays so. It has what was found and, where nothing was
found, what it had. -/
theorem Spells.writeSource {t u : FileTree} {path : String} {old found : Catalog} {w : Written}
    (hspells : Spells (t.lookup? path) old) (h : writeSource t path found true = (u, .ok w)) :
    ∃ new, Spells (u.lookup? path) new ∧ ∀ k, new.get? k = (found.get? k).or (old.get? k) := by
  have hold : readOrEmpty t path = old := hspells.readOrEmpty_eq
  simp only [Locale.writeSource, hold] at h
  split at h
  · -- there is something to write
    split at h
    · rename_i hwrite
      cases h
      refine ⟨updated old found true, ?_, fun k => ?_⟩
      · rw [(lookup?_of_write hwrite).1]
        exact spells_encode _
      · rw [updated, Catalog.get?_merge]
        rfl
    · cases h
  · -- the file has all texts already and is left alone
    rename_i hsame
    cases h
    simp only [Bool.or_eq_true, Bool.not_eq_true', not_or, Bool.not_eq_false] at hsame
    exact ⟨old, hspells, get?_eq_of_sameTexts hsame.1⟩

end Locale

end TextHarvest
