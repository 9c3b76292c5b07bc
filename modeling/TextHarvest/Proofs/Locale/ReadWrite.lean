import TextHarvest.Proofs.Locale.Record

/-!
# Locale files that are written and read

A locale file that was written reads back as the texts that went into it, with every character of
keys and texts and in the order of the keys. Writing what was read gives the same file again; where
it is written over the file that it was read from, nothing at all changes.

* `FileTree.makeDirs_again`, `FileTree.write?_again` — doing again what was done changes nothing.
* `Locale.write_again` — so it is for a locale file.

Main result: `Locale.readsBack_of_write`.
-/

namespace TextHarvest

namespace FileTree

/-! ## Doing it again -/

theorem eq_of_mem_set {t : FileTree} {place : Place} {e : FileEntry} {x : Place × FileEntry}
    (hx : x ∈ (t.set place e).entries) (hplace : x.1 = place) : x = (place, e) := by
  rw [set] at hx
  split at hx
  · -- put over an entry that was there
    obtain ⟨y, -, rfl⟩ := List.mem_map.mp hx
    split
    · rfl
    · rename_i hy
      rw [if_neg hy] at hplace
      exact absurd (beq_iff_eq.mpr hplace) hy
  · -- put behind the others
    rename_i hnew
    rcases List.mem_append.mp hx with hx | hx
    · refine absurd (List.any_eq_true.mpr ⟨x, hx, ?_⟩) hnew
      exact beq_iff_eq.mpr hplace
    · exact List.mem_singleton.mp hx

theorem mem_set (t : FileTree) (place : Place) (e : FileEntry) :
    (place, e) ∈ (t.set place e).entries := by
  rw [set]
  split
  · rename_i hany
    obtain ⟨x, hx, hplace⟩ := List.any_eq_true.mp hany
    exact List.mem_map.mpr ⟨x, hx, if_pos hplace⟩
  · exact List.mem_append_right _ List.mem_cons_self

/-- Putting the same entry at a place twice is putting it there once. -/
theorem set_set (t : FileTree) (place : Place) (e : FileEntry) :
    (t.set place e).set place e = t.set place e := by
  have hany : (t.set place e).entries.any (·.1 == place) = true :=
    List.any_eq_true.mpr ⟨_, mem_set t place e, beq_self_eq_true place⟩
  -- every entry at the place is the new one already
  have hsame : ∀ x ∈ (t.set place e).entries, (if x.1 == place then (place, e) else x) = x := by
    intro x hx
    split
    · rename_i hplace
      exact (eq_of_mem_set hx (beq_iff_eq.mp hplace)).symm
    · rfl
  generalize t.set place e = u at hany hsame
  rw [set, if_pos hany, List.map_congr_left hsame, List.map_id']

/-- Directories that were made need not be made again. -/
theorem makeDirs_again {cs : List Path.Component} {place : Place} {b b' : Bool}
    {t made u : FileTree} (h : makeDirs cs place b t = (made, none)) (hkeep : KeepsDirs made u) :
    makeDirs cs place b' u = (u, none) := by
  induction cs generalizing place b t with
  | nil => rfl
  | cons c cs ih =>
    cases c with
    | root => exact ih h
    | current => exact ih h
    | parent => exact ih h
    | name n =>
      -- whichever way it came to be there, the directory stands in the later tree
      have hgo {t' : FileTree} {b'' : Bool} (hdir : t'.isDirectoryAt (place ++ [n]) = true)
          (hrest : makeDirs cs (place ++ [n]) b'' t' = (made, none)) :
          makeDirs (.name n :: cs) place b' u = (u, none) := by
        have hmade := (makeDirs_keeps cs (place ++ [n]) b'' t').1 _ hdir
        rw [hrest] at hmade
        have hstands := hkeep _ hmade
        rw [isDirectoryAt, beq_iff_eq] at hstands
        rw [makeDirs, hstands]
        exact ih hrest
      rw [makeDirs] at h
      split at h
      · -- it was there already
        rename_i hentry
        exact hgo (by rw [isDirectoryAt, hentry]; rfl) h
      · cases h
      · -- it was made
        refine hgo ?_ h
        rw [isDirectoryAt, entry?_set (by simp), if_pos rfl]
        rfl

/-- A file that was written is the same when it is written again. -/
theorem write?_again {t u : FileTree} {path : String} {content : FileContent}
    (h : t.write? path content = some u) : u.write? path content = some u := by
  have hslash := getLast?_ne_of_write? h
  have hkeep := keepsDirs_of_write? h
  obtain ⟨hplace, hne, -, rfl⟩ := write?_eq_some h
  have hfile : (t.set (Path.place path) (.file content)).isDirectoryAt (Path.place path) =
      false := by
    rw [isDirectoryAt, entry?_set hne, if_pos rfl]
    rfl
  rw [write?, if_neg (by simpa using hslash), hkeep.place? hplace]
  dsimp only
  rw [hfile, if_neg Bool.false_ne_true, set_set]

end FileTree

namespace Locale

variable {t u : FileTree} {path : String} {c : Catalog}

/-- Writing a locale file once more changes nothing. -/
theorem write_again (h : write t path c = (u, none)) : write u path c = (u, none) := by
  obtain ⟨made, hmade, hwrite⟩ := exists_of_write h
  have hdirs : u.createDirs ((Path.parent? path).getD "") = (u, none) :=
    FileTree.makeDirs_again hmade (FileTree.keepsDirs_of_write? hwrite)
  rw [write_eq, hdirs]
  dsimp only
  rw [FileTree.write?_again hwrite]

/-! ## Reading and writing -/

/-- The file at a path reads as some texts in their order, and writing what was read reproduces
it. -/
structure ReadsBack (u : FileTree) (path : String) (c : Catalog) : Prop where
  texts : ∃ d, read u path = .ok d ∧ d.entries = c.entries
  again : ∀ d, read u path = .ok d → write u path d = (u, none)
  elsewhere : ∀ d, read u path = .ok d → ∀ t' path' u', write t' path' d = (u', none) →
    ∃ text, u.readText? path = some text ∧ u'.readText? path' = some text

/-- A locale file that was written reads back as what was written, and writing that again
reproduces it byte for byte. -/
theorem readsBack_of_write (h : write t path c = (u, none)) : ReadsBack u path c := by
  have hread := read_of_write h
  -- whatever is read is what was written
  have hsame : ∀ d, read u path = .ok d → d = c := by
    intro d hd
    rw [hread] at hd
    exact (Except.ok.inj hd).symm
  constructor
  case texts => exact ⟨c, hread, rfl⟩
  case again =>
    intro d hd
    rw [hsame d hd]
    exact write_again h
  case elsewhere =>
    intro d hd t' path' u' hwrite
    rw [hsame d hd] at hwrite
    exact ⟨encode c, readText?_of_write h, readText?_of_write hwrite⟩

/-- Keys and texts with quotes, backslashes, control characters and characters of several bytes,
and the keys in an order of their own. -/
def escapedTexts : Catalog :=
  ⟨[("b\x22\\", "\x00\n\u4f60"), ("", "/\x7f"), ("a", "")], by decide⟩

theorem readsBack_escapedTexts :
    (write .empty "/i18n/zh.json" escapedTexts).2 = none ∧
      ReadsBack (write .empty "/i18n/zh.json" escapedTexts).1 "/i18n/zh.json" escapedTexts := by
  have hdone : (write .empty "/i18n/zh.json" escapedTexts).2 = none := by decide +kernel
  exact ⟨hdone, readsBack_of_write (Prod.ext rfl hdone)⟩

end Locale

end TextHarvest
