import TextHarvest.Proofs.Catalog
import TextHarvest.Proofs.Files.Tree
import TextHarvest.Proofs.Path

/-!
# File trees that agree beside one place

Two trees agree beside a place when they have the same entries everywhere else and neither has a
directory there; a tree and the same tree without one of its files are of this kind. Such trees
have the same directories, so a path leads to the same place in both, and reading or writing at
another place does the same to both.

Main results:

* `agreesBeside_erase` — a tree agrees with itself without one of its files.
* `AgreesBeside.readText?` and `AgreesBeside.write?` — reading and writing at other places.
* `AgreesBeside.createDirs` — making directories on a way that avoids the place.
* `AgreesBeside.writeFault` — what is in the way of a file.
-/

namespace TextHarvest

/-! ## Places of joined paths -/

namespace Path

/-- A name leads one step down. -/
theorem place_join_name {name : String} (h : IsName name) (base : String) :
    place (join base name) = place base ++ [name] := by
  rw [place, components_join_name h, List.foldl_append]
  rfl

/-- Names lead down one by one. -/
theorem place_foldl_join {names : List String} (h : ∀ name ∈ names, IsName name) (base : String) :
    place (names.foldl join base) = place base ++ names := by
  induction names generalizing base with
  | nil => simp
  | cons name names ih =>
    rw [List.foldl_cons, ih (fun n hn => h n (List.mem_cons_of_mem _ hn)),
      place_join_name (h name List.mem_cons_self), List.append_assoc, List.singleton_append]

/-- Paths with the same components lead to the same place. -/
theorem place_eq_of_components_eq {p q : String} (h : components p = components q) :
    place p = place q := by
  rw [place, place, h]

/-- The places that a path goes through, from the root to its end. -/
def way (path : String) : List Place :=
  (components path).scanl Component.lead []

end Path

namespace FileTree

/-! ## Proper trees -/

/-- A tree as a disk has it: one entry for a place, which is not the root, names that paths can
spell, and directories on the way to every entry. -/
structure Proper (t : FileTree) : Prop where
  distinct : (t.entries.map Prod.fst).Nodup
  ne_root : ∀ e ∈ t.entries, e.1 ≠ []
  named : ∀ e ∈ t.entries, ∀ name ∈ e.1, Path.IsName name
  below : ∀ e ∈ t.entries, ∀ n < e.1.length, t.isDirectoryAt (e.1.take n) = true

instance (t : FileTree) : Decidable t.Proper :=
  decidable_of_iff ((t.entries.map Prod.fst).Nodup ∧ (∀ e ∈ t.entries, e.1 ≠ []) ∧
      (∀ e ∈ t.entries, ∀ name ∈ e.1, Path.IsName name) ∧
      ∀ e ∈ t.entries, ∀ n < e.1.length, t.isDirectoryAt (e.1.take n) = true)
    ⟨fun ⟨hd, hr, hn, hb⟩ => ⟨hd, hr, hn, hb⟩, fun ⟨hd, hr, hn, hb⟩ => ⟨hd, hr, hn, hb⟩⟩

/-- What stands at the place of an entry is the entry. -/
theorem Proper.entry?_eq {t : FileTree} (ht : t.Proper) {e : Place × FileEntry}
    (he : e ∈ t.entries) : t.entry? e.1 = some e.2 := by
  rw [ FileTree.entry?, if_neg (by simpa using ht.ne_root e he)]
  exact lookup_eq_some_of_mem ht.distinct he

/-- The same tree with nothing at a place. -/
def erase (t : FileTree) (q : Place) : FileTree :=
  ⟨t.entries.filter (·.1 != q)⟩

/-- Without a place the others are looked up as before. -/
theorem lookup_filter_ne (es : List (Place × FileEntry)) (p q : Place) :
    (es.filter (·.1 != q)).lookup p = if p = q then none else es.lookup p := by
  induction es with
  | nil => simp
  | cons e es ih =>
    obtain ⟨r, f⟩ := e
    -- an entry of the place itself is dropped, every other one is kept
    by_cases hr : r = q
    · subst hr
      rw [List.filter_cons_of_neg (by simp), ih]
      by_cases hp : p = r
      · simp [hp]
      · rw [if_neg hp, if_neg hp, List.lookup_cons, beq_false_of_ne hp]
    · rw [List.filter_cons_of_pos (by simpa using hr), List.lookup_cons, List.lookup_cons, ih]
      by_cases hp : p = r
      · subst hp
        simp [hr]
      · rw [beq_false_of_ne hp]

/-- The same for the entries of a tree. -/
theorem entry?_erase {q : Place} (hq : q ≠ []) (t : FileTree) (p : Place) :
    FileTree.entry? (t.erase q) p = if p = q then none else t.entry? p := by
  by_cases hp : p = []
  · subst hp
    simp [ entry?, Ne.symm hq]
  · rw [ entry?, entry?, erase, lookup_filter_ne]
    simp [hp]

/-- What is made of the entries of a tree without a place is what is made of all of them, less what
is made of that place. -/
theorem filterMap_erase {α : Type} {t : FileTree} {q : Place} {f : Place × FileEntry → Option α}
    {keep : α → Bool} (h : ∀ e ∈ t.entries, ∀ a, f e = some a → (keep a = true ↔ e.1 ≠ q)) :
    (t.erase q).entries.filterMap f = (t.entries.filterMap f).filter keep := by
  rw [erase, List.filterMap_filter, List.filter_filterMap]
  refine List.filterMap_congr fun e he => ?_
  cases hf : f e with
  | none => simp
  | some a =>
    have hkeep := h e he a hf
    by_cases hq : e.1 = q
    · have hdropped : ¬keep a = true := fun hkept => hkeep.mp hkept hq
      rw [Option.filter_some, if_neg hdropped, if_neg (by simpa using hq)]
    · rw [Option.filter_some, if_pos (hkeep.mpr hq), if_pos (by simpa using hq)]

/-! ## Agreement -/

/-- Two trees with the same entries beside a place, where neither has a directory. -/
structure AgreesBeside (q : Place) (t u : FileTree) : Prop where
  elsewhere : ∀ p ≠ q, u.entry? p = t.entry? p
  no_directory_left : t.isDirectoryAt q = false
  no_directory_right : u.isDirectoryAt q = false

/-- What is no directory is not the root. -/
theorem ne_nil_of_isDirectoryAt {t : FileTree} {q : Place} (h : t.isDirectoryAt q = false) :
    q ≠ [] := by
  rintro rfl
  simp [isDirectoryAt, entry?] at h

/-- A tree agrees with itself without one of its files. -/
theorem agreesBeside_erase {t : FileTree} {q : Place} {c : FileContent}
    (hq : t.entry? q = some (.file c)) : AgreesBeside q t (t.erase q) := by
  have hfile : t.isDirectoryAt q = false := by
    simp [isDirectoryAt, hq]
  have hne := ne_nil_of_isDirectoryAt hfile
  refine ⟨?_, hfile, ?_⟩
  · intro p hp
    rw [entry?_erase hne, if_neg hp]
  · simp [isDirectoryAt, entry?_erase hne]

section Agreement

variable {q : Place} {t u : FileTree}

/-- Both trees have the same directories. -/
theorem AgreesBeside.isDirectoryAt (h : AgreesBeside q t u) (p : Place) :
    u.isDirectoryAt p = t.isDirectoryAt p := by
  by_cases hp : p = q
  · -- a file or nothing, in both trees
    rw [hp, h.no_directory_left, h.no_directory_right]
  · rw [FileTree.isDirectoryAt, FileTree.isDirectoryAt, h.elsewhere p hp]

/-- Components lead to the same places. -/
theorem AgreesBeside.follow? (h : AgreesBeside q t u) (cs : List Path.Component) (p : Place) :
    u.follow? cs p = t.follow? cs p := by
  induction cs generalizing p with
  | nil => rfl
  | cons c cs ih => rw [follow?_cons, follow?_cons, h.isDirectoryAt, ih]

/-- So do paths. -/
theorem AgreesBeside.place? (h : AgreesBeside q t u) (path : String) :
    u.place? path = t.place? path :=
  h.follow? _ _

/-- A path leads to a directory when a directory stands at its place. -/
theorem isDirectory_iff {path : String} :
    t.isDirectory path = true ↔ ∃ p, t.place? path = some p ∧ t.isDirectoryAt p = true := by
  rw [isDirectory, lookup?]
  cases t.place? path with
  | none => simp
  | some p =>
    simp only [Option.bind_some, Option.some.injEq, exists_eq_left', FileTree.isDirectoryAt]
    cases t.entry? p with
    | none => simp
    | some e =>
      cases e with
      | directory => simp
      | file c => by_cases hslash : path.toList.getLast? = some '/' <;> simp [hslash]

/-- A path is a directory in both trees or in none. -/
theorem AgreesBeside.isDirectory (h : AgreesBeside q t u) (path : String) :
    u.isDirectory path = t.isDirectory path := by
  rw [Bool.eq_iff_iff, isDirectory_iff, isDirectory_iff]
  simp only [h.place?, h.isDirectoryAt]

/-- At other places both trees have the same. -/
theorem AgreesBeside.lookup? (h : AgreesBeside q t u) {path : String}
    (hpath : Path.place path ≠ q) : u.lookup? path = t.lookup? path := by
  rw [FileTree.lookup?, FileTree.lookup?, h.place?]
  cases hplace : t.place? path with
  | none => rfl
  | some p =>
    obtain rfl := place?_eq_place hplace
    rw [Option.bind_some, Option.bind_some, h.elsewhere _ hpath]

/-- There the same texts are read. -/
theorem AgreesBeside.readText? (h : AgreesBeside q t u) {path : String}
    (hpath : Path.place path ≠ q) : u.readText? path = t.readText? path := by
  rw [FileTree.readText?, FileTree.readText?, h.lookup? hpath]

/-- There the same paths exist. -/
theorem AgreesBeside.pathExists (h : AgreesBeside q t u) {path : String}
    (hpath : Path.place path ≠ q) : u.pathExists path = t.pathExists path := by
  rw [FileTree.pathExists, FileTree.pathExists, h.lookup? hpath]

/-! ## Changing both trees -/

/-- A change at another place is made in both. -/
theorem AgreesBeside.set (h : AgreesBeside q t u) {p : Place} (hp : p ≠ q) (hne : p ≠ [])
    (e : FileEntry) : AgreesBeside q (t.set p e) (u.set p e) := by
  refine ⟨?_, ?_, ?_⟩
  · intro r hr
    rw [entry?_set hne, entry?_set hne, h.elsewhere r hr]
  · rw [FileTree.isDirectoryAt, entry?_set hne, if_neg (Ne.symm hp)]
    exact h.no_directory_left
  · rw [FileTree.isDirectoryAt, entry?_set hne, if_neg (Ne.symm hp)]
    exact h.no_directory_right

/-- A change of the first tree alone, at the place of the difference. -/
theorem AgreesBeside.set_left (h : AgreesBeside q t u) (c : FileContent) :
    AgreesBeside q (t.set q (.file c)) u := by
  have hne := ne_nil_of_isDirectoryAt h.no_directory_left
  refine ⟨?_, ?_, h.no_directory_right⟩
  · intro p hp
    rw [entry?_set hne, if_neg hp, h.elsewhere p hp]
  · simp [FileTree.isDirectoryAt, entry?_set hne]

/-- A file at another place is written to both trees or to none. -/
theorem AgreesBeside.write? (h : AgreesBeside q t u) {path : String}
    (hpath : Path.place path ≠ q) (c : FileContent) :
    Option.Rel (AgreesBeside q) (t.write? path c) (u.write? path c) := by
  rw [FileTree.write?, FileTree.write?, h.place?]
  split
  · exact .none
  cases hplace : t.place? path with
  | none => exact .none
  | some p =>
    obtain rfl := place?_eq_place hplace
    simp only [h.isDirectoryAt]
    split
    · exact .none
    · -- the write is at a place that is free in both, so it is not the one that differs
      rename_i hfree
      exact .some (h.set hpath (ne_nil_of_isDirectoryAt (Bool.not_eq_true _ ▸ hfree)) _)

/-- A write at the place makes no difference. -/
theorem AgreesBeside.write?_left (h : AgreesBeside q t u) {path : String}
    (hpath : Path.place path = q) {c : FileContent} {v : FileTree}
    (hwrite : t.write? path c = some v) : AgreesBeside q v u := by
  obtain ⟨-, -, -, rfl⟩ := write?_eq_some hwrite
  rw [hpath]
  exact h.set_left c

/-! ## Alike answers -/

/-- Two trees that agree beside a place, with the same result. -/
inductive Alike {α : Type} (q : Place) : FileTree × α → FileTree × α → Prop
  | mk {t u : FileTree} (trees : AgreesBeside q t u) (result : α) : Alike q (t, result) (u, result)

/-- On a way beside the place, the same directories are made in both trees, up to the same file. -/
theorem AgreesBeside.makeDirs {cs : List Path.Component} {p : Place} (h : AgreesBeside q t u)
    (made : Bool) (hway : q ∉ cs.scanl Path.Component.lead p) :
    Alike q (makeDirs cs p made t) (makeDirs cs p made u) := by
  induction cs generalizing p made t u with
  | nil => exact .mk h none
  | cons c cs ih =>
    rw [List.scanl_cons, List.mem_cons, not_or] at hway
    have hnext := hway.2
    cases c with
    | root => exact ih h made hnext
    | current => exact ih h made hnext
    | parent => exact ih h made hnext
    | name n =>
      -- the directory to be made is the next place on the way
      have hne : p ++ [n] ≠ q := by
        rintro rfl
        exact hnext (by cases cs <;> simp [Path.Component.lead])
      rw [FileTree.makeDirs, FileTree.makeDirs, h.elsewhere _ hne]
      cases t.entry? (p ++ [n]) with
      | none => exact ih (h.set hne (by simp) .directory) true hnext
      | some e =>
        cases e with
        | directory => exact ih h made hnext
        | file c => exact .mk h _

/-- Directories that do not pass the place are made alike. -/
theorem AgreesBeside.createDirs (h : AgreesBeside q t u) {path : String}
    (hway : q ∉ Path.way path) : Alike q (t.createDirs path) (u.createDirs path) :=
  h.makeDirs false hway

/-- A way that does not come to the place is blocked in both trees by the same. -/
theorem AgreesBeside.wayFault (h : AgreesBeside q t u) {cs : List Path.Component} {p : Place}
    (hway : q ∉ cs.scanl Path.Component.lead p) (c : Path.Component) :
    u.wayFault (cs ++ [c]) p = t.wayFault (cs ++ [c]) p := by
  induction cs generalizing p with
  | nil =>
    have hp : p ≠ q := by
      rintro rfl
      exact hway (by simp)
    simp only [List.nil_append, FileTree.wayFault, h.isDirectoryAt, h.elsewhere p hp]
  | cons d cs ih =>
    rw [List.scanl_cons, List.mem_cons, not_or] at hway
    simp only [List.cons_append, FileTree.wayFault, h.isDirectoryAt,
      h.elsewhere p (Ne.symm hway.1), ih hway.2]

/-- Where there is nothing above a path, nothing is in the way. -/
theorem wayFault_of_parent?_eq_none {path : String} (hparent : Path.parent? path = none)
    (v : FileTree) : v.wayFault (Path.components path) [] = .missing := by
  rcases Path.components_of_parent?_eq_none hparent with hnil | hroot
  · rw [hnil, FileTree.wayFault]
  · simp [hroot, FileTree.wayFault]

/-- A file that cannot be written off the place cannot be written for the same reason. -/
theorem AgreesBeside.writeFault (h : AgreesBeside q t u) {path : String}
    (hway : q ∉ Path.way ((Path.parent? path).getD "")) :
    u.writeFault path = t.writeFault path := by
  rw [FileTree.writeFault, FileTree.writeFault, h.place?]
  split
  · cases hparent : Path.parent? path with
    | none => rw [wayFault_of_parent?_eq_none hparent, wayFault_of_parent?_eq_none hparent]
    | some parent =>
      obtain ⟨dots, last, hdots, -, hpath⟩ := Path.components_of_parent? hparent
      rw [hparent, Option.getD_some, Path.way] at hway
      rw [hpath]
      apply h.wayFault
      -- dots at the front stay at the root
      clear hpath
      induction dots with
      | nil => exact hway
      | cons c dots ih =>
        obtain rfl := hdots c List.mem_cons_self
        rw [List.cons_append, List.scanl_cons, List.mem_cons, not_or]
        exact ⟨ne_nil_of_isDirectoryAt h.no_directory_left,
          ih fun c hc => hdots c (List.mem_cons_of_mem _ hc)⟩
  · rfl

end Agreement

end FileTree

end TextHarvest
