import Mathlib.Data.List.Nodup
import TextHarvest.Files.Scan
import TextHarvest.Proofs.Files.Glob

/-!
# The source files of a project without one of them

The scan of a project lists each source once, in the order of the paths. Whether a path is listed
depends on the entry that it leads to and on the directories above it. So without one of its files
a project has the same sources less those paths that lead to the file.

Main results:

* `pairwise_files` — the sources are listed in order, each once.
* `eq_of_relativeOrSelf_eq` — a relative path belongs to one source only.
* `files_erase` — the sources of a project without one of its files.
-/

namespace TextHarvest.Scan

/-! ## Order -/

/-- Adds a path to the sources found so far, if it is one. -/
def take (root : String) (o : Options) (found : List String) (path : String) : List String :=
  if !isExcludedFile root o path && o.allowsFile path then Path.insertSorted path found else found

theorem files_eq (t : FileTree) (root : String) (o : Options) :
    files t root o = ((included t root o).flatMap (filesBelow t)).foldl (take root o) [] := rfl

/-- Taking one more file keeps the files in order. -/
theorem pairwise_take {root : String} {o : Options} {found : List String}
    (h : found.Pairwise Path.Before) (path : String) :
    (take root o found path).Pairwise Path.Before := by
  rw [take]
  split
  · exact Path.pairwise_insertSorted path h
  · exact h

/-- So does taking several. -/
theorem pairwise_foldl_take {root : String} {o : Options} {found : List String}
    (h : found.Pairwise Path.Before) (paths : List String) :
    (paths.foldl (take root o) found).Pairwise Path.Before := by
  induction paths generalizing found with
  | nil => exact h
  | cons path paths ih => exact ih (pairwise_take h path)

/-- Files are found in the order of their paths. -/
theorem pairwise_files (t : FileTree) (root : String) (o : Options) :
    (files t root o).Pairwise Path.Before :=
  pairwise_foldl_take List.Pairwise.nil _

/-- No file is found twice. -/
theorem nodup_files (t : FileTree) (root : String) (o : Options) : (files t root o).Nodup :=
  (pairwise_files t root o).imp fun h heq => h.components_ne (congrArg Path.components heq)

/-- What is taken was there or is one of the paths. -/
theorem mem_of_mem_foldl_take {root : String} {o : Options} {found paths : List String}
    {p : String} (h : p ∈ paths.foldl (take root o) found) : p ∈ found ∨ p ∈ paths := by
  induction paths generalizing found with
  | nil => exact Or.inl h
  | cons path paths ih =>
    rcases ih h with hmem | hmem
    · rw [take] at hmem
      split at hmem
      · rcases Path.mem_of_mem_insertSorted hmem with rfl | hmem
        · exact Or.inr List.mem_cons_self
        · exact Or.inl hmem
      · exact Or.inl hmem
    · exact Or.inr (List.mem_cons_of_mem _ hmem)

/-! ## Relative paths of sources -/

/-- Directories that are searched lie below the root. -/
theorem anchored_of_mem_included {t : FileTree} {root : String} {o : Options} {p : String}
    (h : p ∈ included t root o) : Path.Anchored root p := by
  have hroot : Path.Anchored root root := Or.inl (Path.startsWith_iff.mpr List.prefix_rfl)
  rw [included] at h
  -- nothing included means the root; a pattern gives absolute directories, a path one below the
  -- root
  split at h
  · rw [List.mem_singleton.mp h]
    exact hroot
  · obtain ⟨inc, -, h⟩ := List.mem_flatMap.mp h
    dsimp only at h
    split at h
    · exact Or.inr (Glob.isAbsolute_of_mem_directories h)
    · split at h
      · rw [List.mem_singleton.mp h]
        exact hroot.join inc
      · cases h

/-- Files below a directory lie below the root with it. -/
theorem anchored_of_mem_filesBelow {t : FileTree} {root path p : String}
    (hpath : Path.Anchored root path) (h : p ∈ filesBelow t path) : Path.Anchored root p := by
  rw [filesBelow] at h
  split at h
  · cases h
  · obtain ⟨⟨names, c⟩, -, h⟩ := List.mem_filterMap.mp h
    dsimp only at h
    split at h
    · cases h
    · cases h
      exact hpath.foldl_join names

/-- Files that are found lie below the root. -/
theorem anchored_of_mem_files {t : FileTree} {root : String} {o : Options} {p : String}
    (h : p ∈ files t root o) : Path.Anchored root p := by
  rcases mem_of_mem_foldl_take h with hmem | hmem
  · cases hmem
  · obtain ⟨path, hpath, hp⟩ := List.mem_flatMap.mp hmem
    exact anchored_of_mem_filesBelow (anchored_of_mem_included hpath) hp

/-- A relative path belongs to one source only. -/
theorem eq_of_relativeOrSelf_eq {t : FileTree} {root : String} {o : Options} {p q : String}
    (hp : p ∈ files t root o) (hq : q ∈ files t root o)
    (h : Path.relativeOrSelf p root = Path.relativeOrSelf q root) : p = q := by
  have hcomponents := Path.components_eq_of_relativeOrSelf (anchored_of_mem_files hp)
    (anchored_of_mem_files hq) h
  -- the list is strictly ordered by components
  have hnodup : ((files t root o).map Path.components).Nodup :=
    List.pairwise_map.mpr ((pairwise_files t root o).imp fun hbefore => hbefore.components_ne)
  exact List.inj_on_of_nodup_map hnodup hp hq hcomponents

/-! ## Trees without a file -/

/-- A path that does not lead to a place. -/
def avoids (q : Place) (path : String) : Bool :=
  Path.place path != q

section Erased

variable {t : FileTree} {q : Place} {c : FileContent}

/-- The path below another one that leads to an entry, if the entry is a file to be looked at. -/
def pathTo? (path : String) (place : Place) (e : Place × FileEntry) : Option String :=
  match e.2 with
  | .file _ =>
    if place.isPrefixOf e.1 then
      let names := e.1.drop place.length
      if names.dropLast.any isHidden then none else some (names.foldl Path.join path)
    else none
  | .directory => none

/-- The files below a directory are the entries of the tree with a path to it. -/
theorem filesBelow_eq {path : String} {place : Place} (h : t.place? path = some place) :
    filesBelow t path = t.entries.filterMap (pathTo? path place) := by
  rw [filesBelow, h]
  dsimp only
  rw [FileTree.filesBelow, List.filterMap_filterMap]
  congr 1
  funext e
  rw [pathTo?]
  cases e.2 with
  | directory => rfl
  | file c => by_cases hbelow : place.isPrefixOf e.1 = true <;> simp [hbelow]

/-- The path to an entry leads to its place. -/
theorem place_of_pathTo? (ht : t.Proper) {path p : String} {e : Place × FileEntry}
    (he : e ∈ t.entries) (h : pathTo? path (Path.place path) e = some p) :
    Path.place p = e.1 ∧ Path.place path <+: e.1 ∧ ∃ c, e.2 = .file c := by
  rw [pathTo?] at h
  split at h
  · rename_i c hfile
    split at h
    · rename_i hbelow
      have hprefix := List.isPrefixOf_iff_prefix.mp hbelow
      dsimp only at h
      split at h
      · cases h
      · cases h
        have hnames : ∀ name ∈ e.1.drop (Path.place path).length, Path.IsName name :=
          fun name hname => ht.named e he name (List.mem_of_mem_drop hname)
        -- the names of the entry below the path lead on from the place of the path
        rw [Path.place_foldl_join hnames]
        refine ⟨?_, hprefix, c, hfile⟩
        obtain ⟨more, hmore⟩ := hprefix
        rw [← hmore, List.drop_left]
    · cases h
  · cases h

/-- A path below another one leads to a file. -/
theorem entry?_of_mem_filesBelow (ht : t.Proper) {path p : String} (hp : p ∈ filesBelow t path) :
    ∃ c, t.entry? (Path.place p) = some (.file c) := by
  cases hplace : t.place? path with
  | none => simp [filesBelow, hplace] at hp
  | some place =>
    obtain rfl := FileTree.place?_eq_place hplace
    rw [filesBelow_eq hplace] at hp
    obtain ⟨e, he, hp⟩ := List.mem_filterMap.mp hp
    obtain ⟨hp, -, c, hfile⟩ := place_of_pathTo? ht he hp
    exact ⟨c, by rw [hp, ht.entry?_eq he, hfile]⟩

/-- A source is a file. -/
theorem entry?_of_mem_files (ht : t.Proper) {root : String} {o : Options} {p : String}
    (hp : p ∈ files t root o) : ∃ c, t.entry? (Path.place p) = some (.file c) := by
  rcases mem_of_mem_foldl_take hp with hmem | hmem
  · cases hmem
  · obtain ⟨path, -, hmem⟩ := List.mem_flatMap.mp hmem
    exact entry?_of_mem_filesBelow ht hmem

/-- The files below a path in the tree without a file are those that are not the file. -/
theorem filesBelow_erase (ht : t.Proper) (hq : t.entry? q = some (.file c)) (path : String) :
    filesBelow (t.erase q) path = (filesBelow t path).filter (avoids q) := by
  have hplaces := (FileTree.agreesBeside_erase hq).place? path
  cases hplace : t.place? path with
  | none => simp [filesBelow, hplaces, hplace]
  | some place =>
    obtain rfl := FileTree.place?_eq_place hplace
    rw [filesBelow_eq hplace, filesBelow_eq (hplaces.trans hplace)]
    refine FileTree.filterMap_erase ?_
    intro e he p hp
    simp [avoids, (place_of_pathTo? ht he hp).1]

/-- No entry stands below a file. -/
theorem eq_of_prefix (ht : t.Proper) (hq : t.isDirectoryAt q = false) {e : Place × FileEntry}
    (he : e ∈ t.entries) (h : q <+: e.1) : e.1 = q := by
  by_contra hne
  have hlength : q.length < e.1.length := by
    rcases Nat.lt_or_ge q.length e.1.length with hlt | hge
    · exact hlt
    · exact absurd (h.eq_of_length (Nat.le_antisymm h.length_le hge)).symm hne
  -- otherwise the place would be on the way to the entry, where directories stand
  have hdirectory := ht.below e he q.length hlength
  rw [← List.prefix_iff_eq_take.mp h, hq] at hdirectory
  cases hdirectory

/-- A path to a file has no files below it but the file. -/
theorem place_of_mem_filesBelow (ht : t.Proper) (hq : t.isDirectoryAt q = false) {path p : String}
    (hpath : Path.place path = q) (hp : p ∈ filesBelow t path) : Path.place p = q := by
  cases hplace : t.place? path with
  | none => simp [filesBelow, hplace] at hp
  | some place =>
    obtain rfl := FileTree.place?_eq_place hplace
    rw [filesBelow_eq hplace] at hp
    obtain ⟨e, he, hp⟩ := List.mem_filterMap.mp hp
    obtain ⟨hp, hprefix, -⟩ := place_of_pathTo? ht he hp
    rw [hp]
    exact eq_of_prefix ht hq he (hpath ▸ hprefix)

/-- The paths that are looked at in the tree without a file are those that do not lead to it. -/
theorem flatMap_included_erase (ht : t.Proper) (hq : t.entry? q = some (.file c)) (root : String)
    (o : Options) :
    (included (t.erase q) root o).flatMap (filesBelow (t.erase q)) =
      ((included t root o).flatMap (filesBelow t)).filter (avoids q) := by
  have hagrees := FileTree.agreesBeside_erase hq
  have hbelow : filesBelow (t.erase q) = fun path => (filesBelow t path).filter (avoids q) :=
    funext fun path => filesBelow_erase ht hq path
  rw [included, included, hbelow]
  split
  · simp
  · rw [List.flatMap_assoc, List.flatMap_assoc, List.filter_flatMap]
    congr 1
    funext inc
    dsimp only
    split
    · rw [Glob.directories_erase ht hq, List.filter_flatMap]
    · by_cases hplace : Path.place (Path.join root inc) = q
      · -- the file itself is included: no path is left of it
        have hnone : (filesBelow t (Path.join root inc)).filter (avoids q) = [] := by
          rw [List.filter_eq_nil_iff]
          intro p hp
          simp [avoids, place_of_mem_filesBelow ht hagrees.no_directory_left hplace hp]
        split <;> split <;> simp [hnone]
      · rw [hagrees.pathExists hplace]
        split <;> simp

/-- Leaving files out before or after they are taken is the same. -/
theorem filter_foldl_take {root : String} {o : Options} (paths : List String) {found : List String}
    (h : found.Pairwise Path.Before) :
    (paths.foldl (take root o) found).filter (avoids q) =
      (paths.filter (avoids q)).foldl (take root o) (found.filter (avoids q)) := by
  -- paths that are spelled differently count as one source by their components
  have hkeep : ∀ p p', Path.components p = Path.components p' → avoids q p = avoids q p' := by
    intro p p' hcomponents
    rw [avoids, avoids, Path.place_eq_of_components_eq hcomponents]
  induction paths generalizing found with
  | nil => rfl
  | cons path paths ih =>
    have htake : (take root o found path).filter (avoids q) =
        if avoids q path = true then take root o (found.filter (avoids q)) path
        else found.filter (avoids q) := by
      rw [take, take]
      split
      · exact Path.filter_insertSorted hkeep path h
      · simp
    rw [List.foldl_cons, ih (pairwise_take h path), htake]
    by_cases hpath : avoids q path = true
    · rw [if_pos hpath, List.filter_cons_of_pos hpath, List.foldl_cons]
    · rw [if_neg hpath, List.filter_cons_of_neg hpath]

/-- The sources of a project without one of its files are those that do not lead to it. -/
theorem files_erase (ht : t.Proper) (hq : t.entry? q = some (.file c)) (root : String)
    (o : Options) : files (t.erase q) root o = (files t root o).filter (avoids q) := by
  rw [files_eq, files_eq, flatMap_included_erase ht hq, filter_foldl_take _ List.Pairwise.nil]
  rfl

end Erased

end TextHarvest.Scan
