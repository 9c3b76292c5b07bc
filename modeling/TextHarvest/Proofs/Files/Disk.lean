import TextHarvest.Proofs.Files.Beside

/-!
# Disks that may fail

A disk may refuse to write a file, and it may break off while it writes, so that the file holds a
beginning of the new content. What else it does to files that are there is what the tree says: the
directory of a file need not be made, and a file that was written holds what was written to it.

Main results:

* `isDirectory_parent` — the path above a file leads to a directory.
* `honest_willing` — a disk that refuses only what cannot be done is honest.
-/

namespace TextHarvest

/-! ## The directory of a file -/

namespace FileTree

variable {t : FileTree}

theorem isDirectoryAt_nil (t : FileTree) : t.isDirectoryAt [] = true := by
  simp [isDirectoryAt, entry?]

/-- Components that do not go back to the root lead to a directory from a directory only. -/
theorem isDirectoryAt_of_follow? {cs : List Path.Component} {place q : Place}
    (hroot : .root ∉ cs) (h : t.follow? cs place = some q) (hq : t.isDirectoryAt q = true) :
    t.isDirectoryAt place = true := by
  cases cs with
  | nil =>
    obtain rfl := Option.some.inj h
    exact hq
  | cons c cs =>
    rw [follow?_cons] at h
    split at h
    · rename_i hpassed
      exact hpassed.resolve_left fun hc => hroot (hc ▸ List.mem_cons_self)
    · cases h

/-- Where a directory stands, none is made. -/
theorem makeDirs_of_follow? {cs : List Path.Component} {place q : Place} (hroot : .root ∉ cs)
    (h : t.follow? cs place = some q) (hq : t.isDirectoryAt q = true) (made : Bool) :
    makeDirs cs place made t = (t, none) := by
  induction cs generalizing place with
  | nil => rfl
  | cons c cs ih =>
    have hrest : .root ∉ cs := fun hmem => hroot (List.mem_cons_of_mem _ hmem)
    rw [follow?_cons] at h
    split at h
    · cases c with
      | root => exact ih hrest h
      | current => exact ih hrest h
      | parent => exact ih hrest h
      | name n =>
        -- the step can be followed, so its directory is there already and is not made
        have hdir := isDirectoryAt_of_follow? hrest h hq
        rw [isDirectoryAt, beq_iff_eq] at hdir
        rw [makeDirs]
        simp only [Path.Component.lead] at hdir
        rw [hdir]
        exact ih hrest h
    · cases h

/-- A directory that is there need not be made. -/
theorem createDirs_of_isDirectory {dir : String} (h : t.isDirectory dir = true) :
    t.createDirs dir = (t, none) := by
  obtain ⟨p, hplace, hp⟩ := isDirectory_iff.mp h
  have hroot := Path.root_not_mem_tail_components dir
  rw [place?] at hplace
  rw [createDirs]
  cases hcomponents : Path.components dir with
  | nil => rfl
  | cons c cs =>
    rw [hcomponents] at hplace hroot
    rw [List.tail_cons] at hroot
    by_cases hc : c = .root
    · -- the way starts at the root again
      subst hc
      rw [follow?_cons, if_pos (Or.inl rfl)] at hplace
      rw [makeDirs]
      exact makeDirs_of_follow? hroot hplace hp false
    · exact makeDirs_of_follow? (by simp [Ne.symm hc, hroot]) hplace hp false

/-- A file is found at the place its path leads to. -/
theorem exists_of_lookup?_file {path : String} {f : FileContent}
    (h : t.lookup? path = some (.file f)) : t.place? path = some (Path.place path) ∧
      t.entry? (Path.place path) = some (.file f) ∧ path.toList.getLast? ≠ some '/' := by
  rw [lookup?] at h
  -- a file is found only where its path leads, and only without a slash behind the path
  cases hplace : t.place? path with
  | none => simp [hplace] at h
  | some p =>
    obtain rfl := place?_eq_place hplace
    rw [hplace, Option.bind_some] at h
    split at h
    · cases h
    · rename_i hentry
      split at h
      · cases h
      · rename_i hslash
        obtain rfl := Option.some.inj h
        exact ⟨rfl, hentry, by simpa using hslash⟩
    · cases h

/-- The path above a file leads to a directory. -/
theorem isDirectory_parent {path : String} {f : FileContent}
    (h : t.lookup? path = some (.file f)) :
    t.isDirectory ((Path.parent? path).getD "") = true := by
  obtain ⟨hplace, hentry, -⟩ := exists_of_lookup?_file h
  cases hparent : Path.parent? path with
  | none =>
    rw [isDirectory_iff]
    exact ⟨[], rfl, isDirectoryAt_nil t⟩
  | some parent =>
    obtain ⟨dots, last, hdots, hlast, hpath⟩ := Path.components_of_parent? hparent
    -- dots at the front do not lead away from the root
    have hfront : t.follow? dots [] = some [] := by
      clear hpath
      induction dots with
      | nil => rfl
      | cons c dots ih =>
        obtain rfl := hdots c List.mem_cons_self
        rw [follow?_cons, if_pos (Or.inr (isDirectoryAt_nil t))]
        exact ih fun c hc => hdots c (List.mem_cons_of_mem _ hc)
    rw [place?, hpath, follow?_append, follow?_append, hfront, Option.bind_some] at hplace
    cases hway : t.follow? (Path.components parent) [] with
    | none => simp [hway] at hplace
    | some p =>
      rw [hway, Option.bind_some, follow?_cons] at hplace
      split at hplace
      · rename_i hpassed
        rw [Option.getD_some, isDirectory_iff]
        exact ⟨p, hway, hpassed.resolve_left hlast⟩
      · cases hplace

/-! ## Writing over a file -/

/-- A file that is there can be written. -/
theorem write?_of_lookup? {path : String} {f : FileContent} (h : t.lookup? path = some (.file f))
    (content : FileContent) :
    t.write? path content = some (t.set (Path.place path) (.file content)) := by
  obtain ⟨hplace, hentry, hslash⟩ := exists_of_lookup?_file h
  simp [write?, hplace, hslash, isDirectoryAt, hentry]

/-- Trees that differ in what one file holds agree beside it. -/
theorem agreesBeside_set_file {q : Place} {f : FileContent} (hq : t.entry? q = some (.file f))
    (content : FileContent) : AgreesBeside q (t.set q (.file content)) t := by
  have hfile : t.isDirectoryAt q = false := by
    simp [isDirectoryAt, hq]
  have hself : AgreesBeside q t t := ⟨fun _ _ => rfl, hfile, hfile⟩
  exact hself.set_left content

/-- When a file is written over, the answers change for the paths that lead to it. -/
theorem lookup?_set_file {q : Place} {f : FileContent} (hq : t.entry? q = some (.file f))
    (content : FileContent) (path : String) :
    FileTree.lookup? (t.set q (.file content)) path =
      if t.place? path = some q ∧ path.toList.getLast? ≠ some '/' then some (.file content)
      else t.lookup? path := by
  have hagree := agreesBeside_set_file hq content
  have hne := ne_nil_of_isDirectoryAt hagree.no_directory_right
  rw [lookup?, lookup?, ← hagree.place?]
  cases hplace : t.place? path with
  | none => simp
  | some p =>
    rw [Option.bind_some, Option.bind_some, entry?_set hne]
    -- the place itself is looked up, or the new file is not seen
    by_cases hp : p = q
    · subst hp
      by_cases hslash : path.toList.getLast? = some '/' <;> simp [hq, hslash]
    · simp [hp]

end FileTree

/-! ## What a disk does -/

/-- What a file may hold when the writing of its content broke off: a beginning of the text, or
bytes that end within a character. -/
inductive FileContent.Begins : FileContent → FileContent → Prop
  | text {front whole : String} (h : front.toList <+: whole.toList) :
    Begins (.text front) (.text whole)
  | bytes (bytes : List UInt8) (whole : FileContent) : Begins (.binary bytes) whole

/-- How a disk may answer when it is asked to write over a file: the file is written, or the disk
refuses and leaves it as it was, or the writing breaks off. -/
inductive Disk.Answers (t : FileTree) (path : String) (content : FileContent) :
    FileTree × Option DiskFault → Prop
  | written : Answers t path content (t.set (Path.place path) (.file content), none)
  | refused (fault : DiskFault) : Answers t path content (t, some fault)
  | brokenOff {part : FileContent} (h : part.Begins content) (fault : DiskFault) :
    Answers t path content (t.set (Path.place path) (.file part), some fault)

/-- A disk that makes no directory where there is one, and writes over a file or says that it could
not. -/
structure Disk.Honest (disk : Disk) : Prop where
  createDirs_eq : ∀ {t : FileTree} {dir : String}, t.isDirectory dir = true →
    disk.createDirs t dir = (t, none)
  answers : ∀ {t : FileTree} {path : String} {f : FileContent},
    t.lookup? path = some (.file f) →
      ∀ content, Answers t path content (disk.write t path content)

/-- A disk that writes whatever it can is honest. -/
theorem Disk.honest_willing : Disk.willing.Honest := by
  constructor
  case createDirs_eq =>
    intro t dir hdir
    exact FileTree.createDirs_of_isDirectory hdir
  case answers =>
    intro t path f hfile content
    simp only [willing, FileTree.write?_of_lookup? hfile]
    exact .written

/-- A disk with a file that may not be written. -/
def Disk.guarding (place : Place) : Disk where
  createDirs := willing.createDirs
  write t path content :=
    if Path.place path = place then (t, some (.other "Permission denied (os error 13)"))
    else willing.write t path content

/-- So is one that refuses a place. -/
theorem Disk.honest_guarding (place : Place) : (Disk.guarding place).Honest := by
  constructor
  case createDirs_eq => exact honest_willing.createDirs_eq
  case answers =>
    intro t path f hfile content
    simp only [guarding]
    split
    · exact .refused _
    · exact honest_willing.answers hfile content

end TextHarvest
