import TextHarvest.Files.Tree

/-!
# What writing does to a file tree

Writing a file or making directories changes what stands at one place and nothing else, and no
operation takes a directory away. The place that a path leads to is decided by its components alone
(`Path.place`); the tree only decides whether the path can be followed. So a path that could be
followed once leads to the same place ever after.

Main results:

* `place?_eq_place` — a path leads to the place that its components spell.
* `readText?_of_createDirs` — making directories leaves every text where it is.
* `readText?_of_write?_same` and `readText?_of_write?_other` — after a file was written, paths to
  its place read the new text, and all other paths read what they read before.
-/

namespace TextHarvest

/-- The place that the components of a path spell. -/
def Path.place (path : String) : Place :=
  (Path.components path).foldl Path.Component.lead []

namespace FileTree

/-! ## Entries -/

/-- Replacing an entry changes what stands at its place and nothing else. -/
theorem lookup_map_replace (es : List (Place × FileEntry)) (place q : Place) (e : FileEntry) :
    (es.map fun x => if x.1 == place then (place, e) else x).lookup q =
      if q = place ∧ es.any (·.1 == place) = true then some e else es.lookup q := by
  induction es with
  | nil => simp
  | cons x es ih =>
    obtain ⟨p, f⟩ := x
    rw [List.map_cons, List.any_cons]
    -- only the entry of the place itself changes, and only a look-up of it notices
    by_cases hp : p = place
    · subst hp
      by_cases hq : q = p
      · simp [hq]
      · rw [if_pos (by simp), List.lookup_cons, beq_false_of_ne hq, ih, List.lookup_cons,
          beq_false_of_ne hq]
        simp [hq]
    · rw [if_neg (by simpa using hp), beq_false_of_ne hp, Bool.false_or]
      by_cases hq : q = p
      · subst hq
        simp [hp]
      · rw [List.lookup_cons, beq_false_of_ne hq, List.lookup_cons, beq_false_of_ne hq]
        exact ih

/-- A new entry is found at its place, and the others where they were. -/
theorem lookup_append_new (es : List (Place × FileEntry)) (place q : Place) (e : FileEntry)
    (hnew : es.any (·.1 == place) = false) :
    (es ++ [(place, e)]).lookup q = if q = place then some e else es.lookup q := by
  induction es with
  | nil =>
    by_cases hq : q = place
    · simp [hq]
    · simp [List.lookup_cons, beq_false_of_ne hq, hq]
  | cons x es ih =>
    obtain ⟨p, f⟩ := x
    rw [List.any_cons, Bool.or_eq_false_iff] at hnew
    -- the place is new, so no entry in front answers for it
    have hp : p ≠ place := by simpa using hnew.1
    by_cases hq : q = p
    · subst hq
      simp [hp]
    · rw [List.cons_append, List.lookup_cons, beq_false_of_ne hq, List.lookup_cons,
        beq_false_of_ne hq]
      exact ih hnew.2

/-- Setting an entry is seen at its place only. -/
theorem entry?_set {t : FileTree} {place : Place} (hplace : place ≠ []) (e : FileEntry)
    (q : Place) : FileTree.entry? (t.set place e) q = if q = place then some e else t.entry? q := by
  by_cases hq : q = []
  · subst hq
    simp [ entry?, Ne.symm hplace]
  · have hentry : ∀ u : FileTree, u.entry? q = u.entries.lookup q := by
      intro u
      rw [ entry?, if_neg (by simpa using hq)]
    rw [hentry, hentry, set]
    by_cases hany : t.entries.any (·.1 == place) = true
    · rw [if_pos hany]
      simp only [lookup_map_replace, hany, and_true]
    · rw [if_neg hany]
      exact lookup_append_new t.entries place q e (Bool.not_eq_true _ ▸ hany)

/-- Whatever is a directory in the first tree is one in the second. -/
def KeepsDirs (t u : FileTree) : Prop :=
  ∀ place, t.isDirectoryAt place = true → u.isDirectoryAt place = true

theorem KeepsDirs.refl (t : FileTree) : KeepsDirs t t := fun _ h => h

theorem KeepsDirs.trans {t u v : FileTree} (h : KeepsDirs t u) (h' : KeepsDirs u v) :
    KeepsDirs t v := fun place hplace => h' place (h place hplace)

/-- Something put where no directory stands takes no directory away. -/
theorem keepsDirs_set {t : FileTree} {place : Place} (hplace : place ≠ [])
    (hfree : t.isDirectoryAt place = false) (e : FileEntry) : KeepsDirs t (t.set place e) := by
  intro q hq
  have hne : q ≠ place := by
    rintro rfl
    rw [hq] at hfree
    simp at hfree
  rw [isDirectoryAt, entry?_set hplace, if_neg hne]
  exact hq

/-! ## Following paths -/

/-- A component is passed from a directory, or from anywhere when it goes back to the root. -/
theorem follow?_cons (t : FileTree) (c : Path.Component) (cs : List Path.Component)
    (place : Place) : t.follow? (c :: cs) place =
      if c = .root ∨ t.isDirectoryAt place = true then t.follow? cs (c.lead place) else none := by
  cases c with
  | root => simp [follow?, Path.Component.lead]
  | current => simp [follow?, Path.Component.lead]
  | parent => simp [follow?, Path.Component.lead]
  | name n => simp [follow?, Path.Component.lead]

/-- A path is followed component after component. -/
theorem follow?_append (t : FileTree) (cs ds : List Path.Component) (place : Place) :
    t.follow? (cs ++ ds) place = (t.follow? cs place).bind (t.follow? ds) := by
  induction cs generalizing place with
  | nil => rfl
  | cons c cs ih =>
    rw [List.cons_append, follow?_cons, follow?_cons]
    split
    · exact ih _
    · rfl

/-- A path that can be followed leads where its components say. -/
theorem follow?_eq_foldl {t : FileTree} {cs : List Path.Component} {place q : Place}
    (h : t.follow? cs place = some q) : q = cs.foldl Path.Component.lead place := by
  induction cs generalizing place with
  | nil => exact (Option.some.inj h).symm
  | cons c cs ih =>
    rw [follow?_cons] at h
    split at h
    · exact ih h
    · cases h

theorem place?_eq_place {t : FileTree} {path : String} {q : Place} (h : t.place? path = some q) :
    q = Path.place path :=
  follow?_eq_foldl h

/-- What keeps the directories keeps the paths through them. -/
theorem KeepsDirs.follow? {t u : FileTree} (hkeep : KeepsDirs t u) {cs : List Path.Component}
    {place q : Place} (h : t.follow? cs place = some q) : u.follow? cs place = some q := by
  induction cs generalizing place with
  | nil => exact h
  | cons c cs ih =>
    rw [follow?_cons] at h ⊢
    split at h
    · rename_i hpassed
      rw [if_pos (hpassed.imp_right (hkeep place))]
      exact ih h
    · cases h

theorem KeepsDirs.place? {t u : FileTree} (hkeep : KeepsDirs t u) {path : String} {q : Place}
    (h : t.place? path = some q) : u.place? path = some q :=
  hkeep.follow? h

/-! ## Reading -/

/-- A path reads a text when it leads to a file with that text and does not end in a slash. -/
theorem readText?_eq_some_iff {t : FileTree} {path s : String} :
    t.readText? path = some s ↔ ∃ place, t.place? path = some place ∧
      t.entry? place = some (.file (.text s)) ∧ path.toList.getLast? ≠ some '/' := by
  rw [readText?, lookup?]
  cases hplace : t.place? path with
  | none => simp
  | some place =>
    cases hentry : t.entry? place with
    | none => simp [hentry]
    | some e =>
      cases e with
      | directory => simp [hentry]
      | file content =>
        -- a file cannot be read through a path with a slash behind it
        by_cases hslash : path.toList.getLast? = some '/'
        · simp [hentry, hslash]
        · cases content with
          | text s' => simp [hentry, hslash]
          | binary bytes => simp [hentry, hslash]

/-- Texts stay readable when directories and the entry at their place stay. -/
theorem readText?_of_keepsDirs {t u : FileTree} (hkeep : KeepsDirs t u) {path s : String}
    (hentry : u.entry? (Path.place path) = t.entry? (Path.place path))
    (h : t.readText? path = some s) : u.readText? path = some s := by
  obtain ⟨place, hplace, htext, hslash⟩ := readText?_eq_some_iff.mp h
  refine readText?_eq_some_iff.mpr ⟨place, hkeep.place? hplace, ?_, hslash⟩
  rw [← place?_eq_place hplace] at hentry
  rw [hentry, htext]

/-! ## Making directories -/

/-- Whatever comes of the making of directories, those that were there stay, and so do the files. -/
theorem makeDirs_keeps (cs : List Path.Component) (place : Place) (made : Bool) (t : FileTree) :
    KeepsDirs t (makeDirs cs place made t).1 ∧
      ∀ q f, t.entry? q = some (.file f) →
        FileTree.entry? (makeDirs cs place made t).1 q = some (.file f) := by
  induction cs generalizing place made t with
  | nil => exact ⟨.refl t, fun _ _ hq => hq⟩
  | cons c cs ih =>
    cases c with
    | root => exact ih [] made t
    | current => exact ih place made t
    | parent => exact ih place.dropLast made t
    | name n =>
      rw [makeDirs]
      have hne : place ++ [n] ≠ [] := by simp
      split
      · exact ih _ _ _
      · exact ⟨.refl t, fun _ _ hq => hq⟩
      · -- a new directory, where no file stood that could be lost
        rename_i hentry
        obtain ⟨hdirs, hfiles⟩ := ih (place ++ [n]) true (t.set (place ++ [n]) .directory)
        have hfree : t.isDirectoryAt (place ++ [n]) = false := by
          rw [isDirectoryAt, hentry]; rfl
        refine ⟨(keepsDirs_set hne hfree .directory).trans hdirs, fun q f hq => hfiles q f ?_⟩
        rw [entry?_set hne, if_neg (by rintro rfl; simp [hentry] at hq)]
        exact hq

/-- Making directories leaves every text where it is, also when a file is in the way. -/
theorem readText?_of_createDirs (t : FileTree) (dir : String) {path s : String}
    (hs : t.readText? path = some s) : (t.createDirs dir).1.readText? path = some s := by
  obtain ⟨hdirs, hfiles⟩ := makeDirs_keeps (Path.components dir) [] false t
  obtain ⟨place, hplace, htext, hslash⟩ := readText?_eq_some_iff.mp hs
  exact readText?_eq_some_iff.mpr ⟨place, hdirs.place? hplace, hfiles _ _ htext, hslash⟩

/-! ## Writing files -/

/-- What a successful write did: it put the file at the place of its path, where no directory
stood. -/
theorem write?_eq_some {t u : FileTree} {path : String} {content : FileContent}
    (h : t.write? path content = some u) :
    t.place? path = some (Path.place path) ∧ Path.place path ≠ [] ∧
      t.isDirectoryAt (Path.place path) = false ∧ u = t.set (Path.place path) (.file content) := by
  rw [write?] at h
  split at h
  · cases h
  cases hplace : t.place? path with
  | none => simp [hplace] at h
  | some place =>
    obtain rfl := place?_eq_place hplace
    simp only [hplace] at h
    split at h
    · simp at h
    · rename_i hdir
      rw [Bool.not_eq_true] at hdir
      refine ⟨rfl, ?_, hdir, (Option.some.inj h).symm⟩
      -- the root is a directory in every tree
      intro hroot
      rw [hroot] at hdir
      simp [isDirectoryAt, entry?] at hdir

/-- What is written to does not end in a slash. -/
theorem getLast?_ne_of_write? {t u : FileTree} {path : String} {content : FileContent}
    (h : t.write? path content = some u) : path.toList.getLast? ≠ some '/' := by
  rw [write?] at h
  split at h
  · cases h
  · rename_i hslash
    simpa using hslash

/-- A write keeps the directories. -/
theorem keepsDirs_of_write? {t u : FileTree} {path : String} {content : FileContent}
    (h : t.write? path content = some u) : KeepsDirs t u := by
  obtain ⟨-, hne, hfree, rfl⟩ := write?_eq_some h
  exact keepsDirs_set hne hfree _

/-- A path to the place that was written reads the new text, if it could be followed before. -/
theorem readText?_of_write?_same {t u : FileTree} {path p s : String} {q : Place}
    (h : t.write? path (.text s) = some u) (hp : t.place? p = some q)
    (hsame : Path.place p = Path.place path) (hslash : p.toList.getLast? ≠ some '/') :
    u.readText? p = some s := by
  have hkeep := keepsDirs_of_write? h
  obtain ⟨-, hne, -, rfl⟩ := write?_eq_some h
  refine readText?_eq_some_iff.mpr ⟨q, hkeep.place? hp, ?_, hslash⟩
  rw [entry?_set hne, if_pos (by rw [place?_eq_place hp, hsame])]

/-- Paths to other places read what they read before. -/
theorem readText?_of_write?_other {t u : FileTree} {path p s : String} {content : FileContent}
    (h : t.write? path content = some u) (hother : Path.place p ≠ Path.place path)
    (hs : t.readText? p = some s) : u.readText? p = some s := by
  have hkeep := keepsDirs_of_write? h
  obtain ⟨-, hne, -, rfl⟩ := write?_eq_some h
  exact readText?_of_keepsDirs hkeep (by rw [entry?_set hne, if_neg hother]) hs

end FileTree

end TextHarvest
