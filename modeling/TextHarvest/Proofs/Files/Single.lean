import Mathlib.Data.List.Infix
import TextHarvest.Proofs.Files.Alike
import TextHarvest.Proofs.Files.Scan

/-!
# The test of a single file and the scan

A file is found in two ways. The scan walks down from the included paths and leaves out hidden
directories below them. The test of a single file looks at the path of the file only, and it takes
no path with a hidden name on it, be it the name of the file itself or of an included directory.
This is all that sets the two apart, for options that spell their paths plainly: a file passes the
test when the scan lists it and no name on its way is hidden.

Included patterns are matched differently too: the walk matches name by name, the test matches the
path as one text, in which a star runs over slashes. The options below are those whose patterns
come to the same for the file.

Main result: `isSource_iff_listed`.
-/

namespace TextHarvest.Scan

open TextHarvest.Path (absolute AreNames)

/-- A file that the scan lists, under any spelling of its path. -/
def Listed (t : FileTree) (root : String) (o : Options) (path : String) : Prop :=
  ∃ p ∈ files t root o, Path.components p = Path.components path

/-! ## Slashes at the end of a path -/

/-- The slashes at the end of a relative path count for nothing. -/
theorem components_dropSlashes {path : String} (h : Path.isAbsolute path = false) :
    Path.components (dropSlashes path) = Path.components path := by
  -- slashes are dropped from the end, so the induction is on the reversed path
  have hreversed : ∀ cs : List Char, Path.isAbsolute (String.ofList cs.reverse) = false →
      Path.components (String.ofList (cs.dropWhile (· == '/')).reverse) =
        Path.components (String.ofList cs.reverse) := by
    intro cs hcs
    induction cs with
    | nil => rfl
    | cons c cs ih =>
      by_cases hc : c = '/'
      · subst hc
        rw [List.dropWhile_cons_of_pos (by simp)]
        have hlast : String.ofList ('/' :: cs).reverse = String.ofList cs.reverse ++ "/" := by
          rw [← String.toList_inj]
          simp
        rw [hlast] at hcs ⊢
        have hne : String.ofList cs.reverse ≠ "" := by
          intro hempty
          rw [hempty] at hcs
          cases hcs
        rw [Path.isAbsolute_append hne] at hcs
        rw [ih hcs, Path.components_append_slash hne]
      · rw [List.dropWhile_cons_of_neg (by simpa using hc)]
  have hpath := hreversed path.toList.reverse
  rw [List.reverse_reverse, String.ofList_toList] at hpath
  exact hpath h

/-- The components of a relative path that does not begin with the current directory. -/
theorem components_of_head? {path : String} (habsolute : Path.isAbsolute path = false)
    (hfirst : (Path.splitText '/' path).head? ≠ some ".") :
    Path.components path = Path.componentsOf (Path.splitText '/' path) := by
  cases hsplit : Path.splitText '/' path with
  | nil => exact absurd hsplit (Path.splitText_ne_nil '/' path)
  | cons first pieces =>
    rw [hsplit] at hfirst
    have hdot : first ≠ "." := by simpa using hfirst
    rw [Path.components_eq hsplit]
    by_cases hempty : first = ""
    · subst hempty
      cases pieces with
      | nil => rfl
      | cons piece pieces =>
        -- an empty piece before a slash begins an absolute path
        have hpath := Glob.intercalate_splitText path
        rw [hsplit, String.intercalate_cons_cons, String.empty_append] at hpath
        rw [← hpath, Path.isAbsolute_append (by decide)] at habsolute
        cases habsolute
    · have hsame : Path.componentOf? first true = Path.componentOf? first false := by
        simp [Path.componentOf?, hdot]
      rw [if_neg hempty, hsame]
      cases hcomponent : Path.componentOf? first false with
      | none => simp [Path.componentsOf, hcomponent]
      | some c => simp [Path.componentsOf, hcomponent]

/-! ## What the test asks -/

/-- Whether the test finds a file below an included path. -/
def testIncludes (names : Place) (inc : String) : Bool :=
  if Glob.isPattern inc then matchesText names inc
  else Path.startsWith ("/".intercalate names) (dropSlashes inc)

/-- Whether the test finds a file at or below an excluded path. -/
def testExcludes (names : Place) (excluded : String) : Bool :=
  if Glob.isPattern excluded then
    (Glob.parse? excluded).any fun g => g.isMatch (forPatterns ("/".intercalate names))
  else Path.startsWith ("/".intercalate names) (dropSlashes excluded)

section File

variable {o : Options} {base names : Place}

/-- The path of a file below the root, from the root. -/
theorem relativeOrSelf_absolute (hbase : AreNames base) (h : AreNames names) (hne : names ≠ []) :
    Path.relativeOrSelf (absolute (base ++ names)) (absolute base) = "/".intercalate names := by
  rw [Path.relativeOrSelf, Path.relativeTo?_absolute hbase h hne]
  rfl

/-- Whether a file below the root is a source is decided by its names. -/
theorem isSource_absolute (hbase : AreNames base) (h : AreNames names) (hne : names ≠ [])
    (o : Options) :
    isSource (absolute base) (absolute (base ++ names)) o =
      (o.allowsFile ("/".intercalate names) && !names.any isHidden &&
        (o.includePaths.isEmpty || o.includePaths.any (testIncludes names)) &&
        !o.excludedPaths.any (testExcludes names)) := by
  rw [isSource, relativeOrSelf_absolute hbase h hne]
  simp only [Path.isAbsolute_names h, Path.components_intercalate h, List.any_map]
  rfl

/-- A plain path below which the test looks is one that the names begin with. -/
theorem startsWith_dropSlashes {path : String} (habsolute : Path.isAbsolute path = false)
    (hfirst : (Path.splitText '/' path).head? ≠ some ".") (h : AreNames names) :
    Path.startsWith ("/".intercalate names) (dropSlashes path) = true ↔
      Path.componentsOf (Path.splitText '/' path) <+: names.map Path.Component.name := by
  rw [Path.startsWith_iff, components_dropSlashes habsolute, components_of_head? habsolute hfirst,
    Path.components_intercalate h]

/-! ## Excluded files -/

/-- The scan leaves out the files that the test finds excluded. -/
theorem isExcludedFile_absolute (hbase : AreNames base) (h : AreNames names) (hne : names ≠ [])
    (halike : ∀ x ∈ o.excludedPaths, ExcludesAlike x) :
    isExcludedFile (absolute base) o (absolute (base ++ names)) =
      o.excludedPaths.any (testExcludes names) := by
  rw [isExcludedFile, relativeOrSelf_absolute hbase h hne]
  rw [Bool.eq_iff_iff, List.any_eq_true, List.any_eq_true]
  refine exists_congr fun x => and_congr_right fun hx => ?_
  rw [testExcludes]
  split
  · rfl
  · rename_i hpattern
    -- a pattern is matched on the relative path, a plain exclusion on the whole one
    obtain ⟨habsolute, hfirst⟩ := (halike x hx).resolve_left hpattern
    rw [startsWith_dropSlashes habsolute hfirst h, Path.startsWith_iff,
      Path.components_join (by simp [absolute]) habsolute, Path.components_absolute hbase,
      Path.components_absolute (Path.areNames_append.mpr ⟨hbase, h⟩), List.map_append,
      ← List.cons_append, List.prefix_append_right_inj]

/-- The name of a file decides whether its extension is allowed. -/
theorem allowsFile_absolute (hbase : AreNames base) (h : AreNames names) (hne : names ≠ [])
    (o : Options) :
    o.allowsFile (absolute (base ++ names)) = o.allowsFile ("/".intercalate names) := by
  have hname : Path.fileName? (absolute (base ++ names)) =
      Path.fileName? ("/".intercalate names) := by
    have hlast : names.map Path.Component.name ≠ [] := by simpa using hne
    rw [Path.fileName?, Path.fileName?, Path.components_intercalate h,
      Path.components_absolute (Path.areNames_append.mpr ⟨hbase, h⟩), List.map_append,
      ← List.cons_append, List.getLast?_append_of_ne_nil _ hlast]
  rw [Options.allowsFile, Options.allowsFile, Path.extension?, Path.extension?, hname]

end File

/-! ## Files below an included path -/

/-- A path that spells a place, perhaps with a slash at its end. -/
def Spells (path : String) (place : Place) : Prop :=
  path = absolute place ∨ place ≠ [] ∧ path = absolute place ++ "/"

section Below

variable {t : FileTree} {place names : Place} {path p : String}

/-- A path that spells a place leads there. -/
theorem Spells.place? (h : Spells path place) : t.place? path = t.place? (absolute place) := by
  rcases h with rfl | ⟨-, rfl⟩
  · rfl
  · exact FileTree.place?_absolute_slash t place

/-- Joining names to a path that spells a place spells the place below it. -/
theorem Spells.foldl_join (h : Spells path place) (hall : AreNames (place ++ names))
    (hne : names ≠ []) : names.foldl Path.join path = absolute (place ++ names) := by
  obtain ⟨hplace, hnames⟩ := Path.areNames_append.mp hall
  rcases h with rfl | ⟨hroot, rfl⟩
  · exact Path.foldl_join_absolute hplace hnames
  · -- the first name takes the place of the slash at the end
    cases names with
    | nil => exact absurd rfl hne
    | cons name names =>
      have hname := hnames name List.mem_cons_self
      rw [List.foldl_cons, Path.join_slash hplace hroot hname,
        ← Path.join_absolute_name hplace hname, ← List.foldl_cons,
        Path.foldl_join_absolute hplace hnames]

/-- A path that spells a directory exists, also with a slash at its end. -/
theorem Spells.pathExists (h : Spells path place) (ht : t.Proper)
    (hdirectory : t.isDirectoryAt place = true) : t.pathExists path = true := by
  have hentry := FileTree.isDirectoryAt_iff.mp hdirectory
  have hplace := ht.areNames hentry
  rcases h with rfl | ⟨-, rfl⟩
  · rw [ht.pathExists_absolute hplace, hentry]
    rfl
  · rw [ht.pathExists_slash hplace, hdirectory]

/-- A file that is found below a path. -/
theorem exists_of_mem_filesBelow (ht : t.Proper) (hplace : AreNames place)
    (hpath : Spells path place) (hp : p ∈ filesBelow t path) :
    ∃ names c, t.entry? (place ++ names) = some (.file c) ∧ p = names.foldl Path.join path := by
  cases hlead : t.place? path with
  | none => simp [filesBelow, hlead] at hp
  | some q =>
    have hq : q = place := by
      rw [hpath.place?] at hlead
      rw [FileTree.place?_eq_place hlead, Path.place_absolute hplace]
    subst hq
    rw [filesBelow_eq hlead] at hp
    obtain ⟨e, he, hp⟩ := List.mem_filterMap.mp hp
    rw [pathTo?] at hp
    split at hp
    · rename_i c hfile
      split at hp
      · rename_i hbelow
        -- the names behind the place lead to the file
        obtain ⟨names, hnames⟩ := List.isPrefixOf_iff_prefix.mp hbelow
        have hentry := ht.entry?_eq he
        rw [← hnames, hfile] at hentry
        rw [← hnames, List.drop_left] at hp
        dsimp only at hp
        split at hp
        · cases hp
        · exact ⟨names, c, hentry, (Option.some.inj hp).symm⟩
      · cases hp
    · cases hp

/-- A file that no hidden name hides is found below each path that spells a place above it. -/
theorem mem_filesBelow (ht : t.Proper) {c : FileContent} (hpath : Spells path place)
    (hentry : t.entry? (place ++ names) = some (.file c))
    (hhidden : names.dropLast.any isHidden = false) :
    names.foldl Path.join path ∈ filesBelow t path := by
  -- the directory is there since the file lies below it
  have hlead : t.place? path = some place := by
    rw [hpath.place?]
    by_cases hne : names = []
    · subst hne
      rw [List.append_nil] at hentry
      exact ht.place?_absolute hentry
    · have hdirectory := ht.isDirectoryAt_of_prefix hentry (List.prefix_append place names)
        (by simpa using hne)
      exact ht.place?_absolute (FileTree.isDirectoryAt_iff.mp hdirectory)
  have hne : place ++ names ≠ [] := by
    intro hnil
    rw [hnil] at hentry
    simp [FileTree.entry?] at hentry
  rw [filesBelow_eq hlead]
  refine List.mem_filterMap.mpr ⟨_, FileTree.mem_entries_of_eq_some hne hentry, ?_⟩
  simp [pathTo?, hhidden]

/-- A file has its plain path below each path above it, and below itself without a slash. -/
theorem absolute_mem_filesBelow (ht : t.Proper) {c : FileContent} (hpath : Spells path place)
    (hentry : t.entry? (place ++ names) = some (.file c))
    (hhidden : names.dropLast.any isHidden = false) (hbelow : names = [] → path = absolute place) :
    absolute (place ++ names) ∈ filesBelow t path := by
  have hmem := mem_filesBelow ht hpath hentry hhidden
  by_cases hne : names = []
  · subst hne
    rwa [List.append_nil, ← hbelow rfl]
  · rwa [hpath.foldl_join (ht.areNames hentry) hne] at hmem

end Below

/-! ## Included paths -/

/-- The directories and files to look at for one included path. -/
def includedBy (t : FileTree) (root inc : String) : List String :=
  if Glob.isPattern inc then Glob.directories t (Path.join root inc)
  else if t.pathExists (Path.join root inc) then [Path.join root inc] else []

theorem included_eq (t : FileTree) (root : String) (o : Options) :
    included t root o =
      if o.includePaths.isEmpty then [root] else o.includePaths.flatMap (includedBy t root) := rfl

section Included

variable {t : FileTree} {base names : Place} {inc : String}

/-- A plain included path spells the place of its names. -/
theorem spells_join (hbase : AreNames base) (hinc : AreNames (Glob.pieces inc)) :
    Spells (Path.join (absolute base) inc) (base ++ Glob.pieces inc) := by
  obtain ⟨front, last, hsplit⟩ := Glob.exists_splitText_eq inc
  have htext := Glob.intercalate_splitText inc
  rw [hsplit] at htext
  rw [Glob.pieces_eq hsplit] at hinc ⊢
  by_cases hlast : last = ""
  · rw [if_pos hlast] at hinc ⊢
    subst hlast
    by_cases hfront : front = []
    · -- the empty path spells the root, with a slash at its end
      subst hfront
      rw [List.append_nil, ← htext]
      by_cases hroot : base = []
      · subst hroot
        exact Or.inl rfl
      · exact Or.inr ⟨hroot, Path.join_absolute_empty hbase hroot⟩
    · rw [String.intercalate_append_of_ne_nil hfront (by simp), String.intercalate_singleton,
        String.append_empty] at htext
      rw [← htext, Path.join_append (Path.intercalate_ne_empty hinc hfront),
        Path.join_absolute hbase hinc hfront]
      exact Or.inr ⟨by simp [hfront], rfl⟩
  · rw [if_neg hlast] at hinc ⊢
    rw [← htext, Path.join_absolute hbase hinc (by simp)]
    exact Or.inl rfl

variable {d q : String} {c : FileContent}

/-- A file below a path that exists has its plain path there and lies at or below the place. -/
theorem eq_of_mem_filesBelow (ht : t.Proper) {place file : Place} (hplace : AreNames place)
    (hd : Spells d place) (hexists : t.pathExists d = true) (hq : q ∈ filesBelow t d)
    (hfile : AreNames file) (hsame : Path.components q = Path.components (absolute file)) :
    place <+: file ∧ q = absolute file := by
  obtain ⟨more, c, hentry, rfl⟩ := exists_of_mem_filesBelow ht hplace hd hq
  have hall := ht.areNames hentry
  by_cases hmore : more = []
  · subst hmore
    rw [List.append_nil] at hentry
    rcases hd with rfl | ⟨-, rfl⟩
    · have heq := Path.eq_of_components_absolute hplace hfile hsame
      rw [heq]
      exact ⟨List.prefix_rfl, rfl⟩
    · -- a slash at its end would lead to a directory
      rw [ht.pathExists_slash hplace, FileTree.isDirectoryAt_iff, hentry] at hexists
      cases hexists
  · -- names behind the path bring the plain spelling back
    rw [hd.foldl_join hall hmore] at hsame ⊢
    rw [← Path.eq_of_components_absolute hall hfile hsame]
    exact ⟨List.prefix_append _ _, rfl⟩

/-- The test finds the files below a plain included path. -/
theorem testIncludes_iff (hpattern : Glob.isPattern inc = false)
    (hinc : AreNames (Glob.pieces inc)) (h : AreNames names) :
    testIncludes names inc = true ↔ Glob.pieces inc <+: names := by
  have habsolute := Glob.isAbsolute_of_pieces fun hempty => (hinc "" hempty).ne_empty rfl
  rw [testIncludes, if_neg (by simp [hpattern]),
    startsWith_dropSlashes habsolute (Glob.head?_splitText hinc) h,
    Glob.componentsOf_splitText hinc]
  exact List.prefix_map_iff_of_injective fun _ _ => Path.Component.name.inj

/-- A pattern lets a file through when it leads to one of the directories above it. -/
theorem matchesNames_iff : matchesNames names inc = true ↔
    ∃ gs, (Glob.pieces inc).mapM Glob.parse? = some gs ∧
      ∃ ds, ds <+: names.dropLast ∧ Glob.leads gs ds = true := by
  rw [matchesNames, Option.any_eq_true]
  simp only [List.any_eq_true, List.mem_inits]

/-- A directory of the tree above a file is above its last name. -/
theorem prefix_dropLast {ds : Place} (hfile : t.entry? (base ++ names) = some (.file c))
    (hdirectory : t.isDirectoryAt (base ++ ds) = true) (h : ds <+: names) :
    ds <+: names.dropLast := by
  obtain ⟨more, rfl⟩ := h
  obtain rfl | ⟨front, last, rfl⟩ := List.eq_nil_or_concat more
  · rw [FileTree.isDirectoryAt_iff, ← List.append_nil ds, hfile] at hdirectory
    cases hdirectory
  · rw [List.concat_eq_append, ← List.append_assoc, List.dropLast_concat]
    exact List.prefix_append _ _

/-- Names above the last one leave some names to the file. -/
theorem exists_append_of_prefix_dropLast {ds : Place} (hne : names ≠ [])
    (h : ds <+: names.dropLast) : ∃ more, more ≠ [] ∧ names = ds ++ more := by
  obtain ⟨more, hmore⟩ := h
  refine ⟨more ++ [names.getLast hne], by simp, ?_⟩
  rw [← List.append_assoc, hmore, List.dropLast_append_getLast hne]

/-- No name hides what lies below the first names of a file. -/
theorem any_dropLast_isHidden {ds more : Place} (h : (ds ++ more).any isHidden = false) :
    more.dropLast.any isHidden = false := by
  rw [List.any_eq_false] at h ⊢
  exact fun name hname => h name (List.mem_append_right _ (List.dropLast_subset _ hname))

/-- With a slash at its end an included path does not spell the file itself. -/
theorem join_eq_absolute (hbase : AreNames base) (hinc : AreNames (Glob.pieces inc))
    (hne : Glob.pieces inc ≠ []) (hend : inc.toList.getLast? ≠ some '/') :
    Path.join (absolute base) inc = absolute (base ++ Glob.pieces inc) := by
  rcases spells_join hbase hinc with hpath | ⟨-, hpath⟩
  · exact hpath
  · have hempty : inc ≠ "" := by
      rintro rfl
      exact hne rfl
    have hlast := Path.getLast?_join hempty (absolute base)
    rw [hpath] at hlast
    exact absurd (hlast.symm.trans (by simp)) hend

variable (ht : t.Proper) (hplain : ∀ name ∈ base, Glob.isPattern name = false)
  (hfile : t.entry? (base ++ names) = some (.file c)) (hne : names ≠ [])

include ht hfile

/-- What the scan finds below a plain included path. -/
theorem prefix_of_mem_filesBelow (hinc : AreNames (Glob.pieces inc))
    (hexists : t.pathExists (Path.join (absolute base) inc) = true)
    (hq : q ∈ filesBelow t (Path.join (absolute base) inc))
    (hsame : Path.components q = Path.components (absolute (base ++ names))) :
    q = absolute (base ++ names) ∧ Glob.pieces inc <+: names := by
  have hall := ht.areNames hfile
  have hbase := (Path.areNames_append.mp hall).1
  obtain ⟨hstart, hpath⟩ := eq_of_mem_filesBelow ht (Path.areNames_append.mpr ⟨hbase, hinc⟩)
    (spells_join hbase hinc) hexists hq hall hsame
  exact ⟨hpath, (List.prefix_append_right_inj base).mp hstart⟩

include hplain in
/-- What the scan finds below an included pattern. -/
theorem matchesNames_of_mem (hpattern : Glob.isPattern inc = true) (htidy : Glob.Tidy inc)
    (hd : d ∈ Glob.directories t (Path.join (absolute base) inc)) (hq : q ∈ filesBelow t d)
    (hsame : Path.components q = Path.components (absolute (base ++ names))) :
    q = absolute (base ++ names) ∧ matchesNames names inc = true := by
  have hall := ht.areNames hfile
  have hbase := (Path.areNames_append.mp hall).1
  obtain ⟨gs, hgs, ds, hleads, hdirectory, rfl⟩ :=
    (Glob.mem_directories_iff ht hbase hplain hpattern htidy).mp hd
  have hplace := ht.areNames (FileTree.isDirectoryAt_iff.mp hdirectory)
  have hspells : Spells (absolute (base ++ ds)) (base ++ ds) := Or.inl rfl
  obtain ⟨hstart, hpath⟩ := eq_of_mem_filesBelow ht hplace hspells
    (hspells.pathExists ht hdirectory) hq hall hsame
  -- the directory that was found lies above the file
  have hds := prefix_dropLast hfile hdirectory ((List.prefix_append_right_inj base).mp hstart)
  exact ⟨hpath, matchesNames_iff.mpr ⟨gs, hgs, ds, hds, hleads⟩⟩

include hplain in
/-- What the scan finds below an included path, the test finds too. -/
theorem testIncludes_of_mem (halike : IncludesAlike names inc)
    (hd : d ∈ includedBy t (absolute base) inc) (hq : q ∈ filesBelow t d)
    (hsame : Path.components q = Path.components (absolute (base ++ names))) :
    q = absolute (base ++ names) ∧ testIncludes names inc = true := by
  have hnames := (Path.areNames_append.mp (ht.areNames hfile)).2
  rw [IncludesAlike] at halike
  rw [includedBy] at hd
  -- a pattern matches by its pieces, a plain path is a prefix of the names
  by_cases hpattern : Glob.isPattern inc = true
  · rw [if_pos hpattern] at halike hd
    rw [testIncludes, if_pos hpattern, halike.2]
    exact matchesNames_of_mem ht hplain hfile hpattern halike.1 hd hq hsame
  · rw [if_neg hpattern] at halike hd
    rw [List.mem_ite_nil_right, List.mem_singleton] at hd
    obtain ⟨hexists, rfl⟩ := hd
    rw [testIncludes_iff (by simpa using hpattern) halike.1 hnames]
    exact prefix_of_mem_filesBelow ht hfile halike.1 hexists hq hsame

include hne

/-- The scan finds a file that stands below a plain included path. -/
theorem mem_filesBelow_join (hinc : AreNames (Glob.pieces inc))
    (hend : inc.toList.getLast? = some '/' → Glob.pieces inc ≠ names)
    (hhidden : names.any isHidden = false) (hstart : Glob.pieces inc <+: names) :
    t.pathExists (Path.join (absolute base) inc) = true ∧
      absolute (base ++ names) ∈ filesBelow t (Path.join (absolute base) inc) := by
  have hall := ht.areNames hfile
  have hbase := (Path.areNames_append.mp hall).1
  have hspells := spells_join hbase hinc
  obtain ⟨more, hmore⟩ := hstart
  by_cases hself : more = []
  · -- the included path is the file itself
    rw [hself, List.append_nil] at hmore
    have hjoin := join_eq_absolute hbase hinc (hmore ▸ hne) fun hlast => hend hlast hmore
    rw [hmore] at hjoin
    rw [hjoin, ht.pathExists_absolute hall, hfile]
    have hmem : absolute (base ++ names ++ []) ∈ filesBelow t (absolute (base ++ names)) :=
      absolute_mem_filesBelow ht (Or.inl rfl) (by simpa using hfile) rfl fun _ => rfl
    rw [List.append_nil] at hmem
    exact ⟨rfl, hmem⟩
  · rw [← hmore, ← List.append_assoc] at hfile ⊢
    have hdirectory := ht.isDirectoryAt_of_prefix hfile (List.prefix_append _ more)
      (by simpa using hself)
    exact ⟨hspells.pathExists ht hdirectory, absolute_mem_filesBelow ht hspells hfile
      (any_dropLast_isHidden (hmore ▸ hhidden)) fun hnil => absurd hnil hself⟩

include hplain

/-- The scan finds a file below a directory that matches an included pattern. -/
theorem exists_mem_directories (hpattern : Glob.isPattern inc = true) (htidy : Glob.Tidy inc)
    (hhidden : names.any isHidden = false) (hmatch : matchesNames names inc = true) :
    ∃ d ∈ Glob.directories t (Path.join (absolute base) inc),
      absolute (base ++ names) ∈ filesBelow t d := by
  have hbase := (Path.areNames_append.mp (ht.areNames hfile)).1
  obtain ⟨gs, hgs, ds, hds, hleads⟩ := matchesNames_iff.mp hmatch
  -- the directory is on the way to the file, so the tree has it
  obtain ⟨more, hbelow, rfl⟩ := exists_append_of_prefix_dropLast hne hds
  rw [← List.append_assoc] at hfile ⊢
  have hdirectory := ht.isDirectoryAt_of_prefix hfile (List.prefix_append (base ++ ds) more)
    (by simpa using hbelow)
  refine ⟨absolute (base ++ ds), ?_, absolute_mem_filesBelow ht (Or.inl rfl) hfile
    (any_dropLast_isHidden hhidden) fun _ => rfl⟩
  exact (Glob.mem_directories_iff ht hbase hplain hpattern htidy).mpr
    ⟨gs, hgs, ds, hleads, hdirectory, rfl⟩

/-- What the test finds below an included path, the scan finds too. -/
theorem exists_mem_of_testIncludes (halike : IncludesAlike names inc)
    (hhidden : names.any isHidden = false) (htest : testIncludes names inc = true) :
    ∃ d ∈ includedBy t (absolute base) inc, absolute (base ++ names) ∈ filesBelow t d := by
  have hnames := (Path.areNames_append.mp (ht.areNames hfile)).2
  rw [IncludesAlike] at halike
  rw [includedBy]
  -- as for the other direction: a pattern by its pieces, a path as a prefix
  by_cases hpattern : Glob.isPattern inc = true
  · rw [if_pos hpattern] at halike ⊢
    rw [testIncludes, if_pos hpattern, halike.2] at htest
    exact exists_mem_directories ht hplain hfile hne hpattern halike.1 hhidden htest
  · rw [if_neg hpattern] at halike ⊢
    rw [testIncludes_iff (by simpa using hpattern) halike.1 hnames] at htest
    obtain ⟨hexists, hmem⟩ := mem_filesBelow_join ht hfile hne halike.1 halike.2 hhidden htest
    rw [if_pos hexists]
    exact ⟨_, List.mem_singleton_self _, hmem⟩

end Included

/-! ## Listed files -/

section Listed

variable {root : String} {o : Options} {cs : List Path.Component}

/-- What is sorted in is found again, by its components. -/
theorem exists_mem_insertSorted {path : String} {ps : List String} :
    (∃ p ∈ Path.insertSorted path ps, Path.components p = cs) ↔
      Path.components path = cs ∨ ∃ p ∈ ps, Path.components p = cs := by
  induction ps with
  | nil => simp [Path.insertSorted]
  | cons q ps ih =>
    rcases Path.insertSorted_cons path q ps with ⟨hsame, heq⟩ | ⟨-, heq⟩ | ⟨-, heq⟩
    · rw [heq, List.exists_mem_cons_iff, hsame]
      simp
    · rw [heq, List.exists_mem_cons_iff]
    · rw [heq, List.exists_mem_cons_iff, List.exists_mem_cons_iff, ih, or_left_comm]

/-- What is taken is found again, by its components. -/
theorem exists_mem_foldl_take {paths found : List String} :
    (∃ p ∈ paths.foldl (take root o) found, Path.components p = cs) ↔
      (∃ p ∈ found, Path.components p = cs) ∨
        ∃ p ∈ paths, (isExcludedFile root o p = false ∧ o.allowsFile p = true) ∧
          Path.components p = cs := by
  induction paths generalizing found with
  | nil => simp
  | cons path paths ih =>
    rw [List.foldl_cons, ih, List.exists_mem_cons_iff, take]
    -- a path that is taken joins those found, and keeps them sorted
    by_cases htaken : isExcludedFile root o path = false ∧ o.allowsFile path = true
    · rw [if_pos (by simp [htaken]), exists_mem_insertSorted]
      simp [htaken, or_assoc, or_left_comm]
    · rw [if_neg (by simpa using htaken)]
      simp [htaken]

/-- A file is listed when it lies below a searched directory and is not excluded. -/
theorem listed_iff {t : FileTree} {path : String} :
    Listed t root o path ↔ ∃ d ∈ included t root o, ∃ p ∈ filesBelow t d,
      (isExcludedFile root o p = false ∧ o.allowsFile p = true) ∧
        Path.components p = Path.components path := by
  rw [Listed, files_eq, exists_mem_foldl_take]
  simp only [List.not_mem_nil, false_and, exists_false, false_or, List.mem_flatMap]
  constructor
  · rintro ⟨p, ⟨d, hd, hp⟩, htaken⟩
    exact ⟨d, hd, p, hp, htaken⟩
  · rintro ⟨d, hd, p, hp, htaken⟩
    exact ⟨p, ⟨d, hd, hp⟩, htaken⟩

end Listed

/-! ## The test and the scan -/

section Main

variable {t : FileTree} {o : Options} {base names : Place} {c : FileContent}

variable (ht : t.Proper) (hplain : ∀ name ∈ base, Glob.isPattern name = false)
  (hfile : t.entry? (base ++ names) = some (.file c)) (hne : names ≠ [])

include ht hplain hfile hne

/-- What the scan finds is spelled plainly, and the test finds it too. -/
theorem included_of_mem (halike : Alike o names) {d q : String}
    (hd : d ∈ included t (absolute base) o) (hq : q ∈ filesBelow t d)
    (hsame : Path.components q = Path.components (absolute (base ++ names))) :
    q = absolute (base ++ names) ∧
      (o.includePaths.isEmpty || o.includePaths.any (testIncludes names)) = true := by
  have hall := ht.areNames hfile
  have hdirectory := ht.isDirectoryAt_of_prefix hfile (List.prefix_append base names)
    (by simpa using hne)
  rw [included_eq] at hd
  split at hd
  · rename_i hempty
    obtain rfl := List.mem_singleton.mp hd
    -- without inclusions the scan starts at the root, which spells its own place
    have hspells : Spells (absolute base) base := Or.inl rfl
    have hpath := (eq_of_mem_filesBelow ht (Path.areNames_append.mp hall).1 hspells
      (hspells.pathExists ht hdirectory) hq hall hsame).2
    exact ⟨hpath, by rw [hempty, Bool.true_or]⟩
  · obtain ⟨inc, hinc, hd⟩ := List.mem_flatMap.mp hd
    obtain ⟨hpath, htest⟩ :=
      testIncludes_of_mem ht hplain hfile (halike.included inc hinc) hd hq hsame
    exact ⟨hpath, Bool.or_eq_true_iff.mpr (Or.inr (List.any_eq_true.mpr ⟨inc, hinc, htest⟩))⟩

/-- What the test finds, the scan finds too unless a name hides it. -/
theorem exists_mem_included (halike : Alike o names) (hhidden : names.any isHidden = false)
    (htest : (o.includePaths.isEmpty || o.includePaths.any (testIncludes names)) = true) :
    ∃ d ∈ included t (absolute base) o, absolute (base ++ names) ∈ filesBelow t d := by
  rw [included_eq]
  split
  · exact ⟨absolute base, List.mem_singleton_self _, absolute_mem_filesBelow ht (Or.inl rfl) hfile
      (any_dropLast_isHidden (List.nil_append names ▸ hhidden)) fun _ => rfl⟩
  · rename_i hempty
    rw [Bool.or_eq_true_iff] at htest
    obtain ⟨inc, hinc, htest⟩ := List.any_eq_true.mp (htest.resolve_left hempty)
    obtain ⟨d, hd, hmem⟩ :=
      exists_mem_of_testIncludes ht hplain hfile hne (halike.included inc hinc) hhidden htest
    exact ⟨d, List.mem_flatMap.mpr ⟨inc, hinc, hd⟩, hmem⟩

/-- A file passes the test by its path alone when the scan lists it and no name on its way is
hidden. -/
theorem isSource_iff_listed (halike : Alike o names) :
    isSource (absolute base) (absolute (base ++ names)) o = true ↔
      Listed t (absolute base) o (absolute (base ++ names)) ∧
        ∀ name ∈ names, isHidden name = false := by
  obtain ⟨hbase, hnames⟩ := Path.areNames_append.mp (ht.areNames hfile)
  have hexcluded := isExcludedFile_absolute hbase hnames hne halike.excluded
  have hallowed := allowsFile_absolute hbase hnames hne o
  have hhidden : names.any isHidden = false ↔ ∀ name ∈ names, isHidden name = false := by
    simp
  -- both sides exclude and allow the same files; what is left are the included paths
  rw [isSource_absolute hbase hnames hne, listed_iff, ← hexcluded, ← hallowed, ← hhidden]
  simp only [Bool.and_eq_true, Bool.not_eq_true']
  constructor
  · rintro ⟨⟨⟨hallows, hopen⟩, htest⟩, hkept⟩
    obtain ⟨d, hd, hmem⟩ := exists_mem_included ht hplain hfile hne halike hopen htest
    exact ⟨⟨d, hd, _, hmem, ⟨hkept, hallows⟩, rfl⟩, hopen⟩
  · rintro ⟨⟨d, hd, q, hq, ⟨hkept, hallows⟩, hsame⟩, hopen⟩
    obtain ⟨rfl, htest⟩ := included_of_mem ht hplain hfile hne halike hd hq hsame
    exact ⟨⟨⟨hallows, hopen⟩, htest⟩, hkept⟩

end Main

/-- A package in a project, with a source of its own. -/
def packageTree : FileTree :=
  ⟨[(["app"], .directory), (["app", "packages"], .directory),
    (["app", "packages", "core"], .directory),
    (["app", "packages", "core", "a.ts"], .file (.text ""))]⟩

/-- Options that include all packages, and exclude declarations. -/
def packageOptions : Options :=
  { includePaths := ["src/", "packages/*"], excludedPaths := ["src/gen", "**/*.d.ts"] }

/-- The test and the scan read these options alike for a source of a package. -/
theorem alike_package : Alike packageOptions ["packages", "core", "a.ts"] := by
  refine alike_of_plain ?_ (by decide) (by decide) (by decide)
  intro inc hinc
  rcases List.mem_pair.mp hinc with rfl | rfl
  · exact .path (by decide) (by decide) (by decide)
  · have hstar : "packages/*" = starBelow ["packages"] := by decide
    rw [hstar]
    exact .starBelow (by decide) (by decide) (by decide)

/-- The test and the scan agree on a source of a package. -/
theorem isSource_iff_listed_package :
    (isSource (absolute ["app"]) (absolute (["app"] ++ ["packages", "core", "a.ts"]))
        packageOptions = true ↔
      Listed packageTree (absolute ["app"]) packageOptions
          (absolute (["app"] ++ ["packages", "core", "a.ts"])) ∧
        ∀ name ∈ ["packages", "core", "a.ts"], isHidden name = false) ∧
      isSource (absolute ["app"]) (absolute (["app"] ++ ["packages", "core", "a.ts"]))
        packageOptions = true :=
  ⟨isSource_iff_listed (c := .text "") (by decide +kernel) (by decide) (by decide) (by decide)
    alike_package, by decide +kernel⟩

/-- A file with a hidden name in a directory that is entered. -/
def hiddenFileTree : FileTree :=
  ⟨[(["app"], .directory), (["app", "src"], .directory),
    (["app", "src", ".a.ts"], .file (.text ""))]⟩

/-- The scan lists a file whose own name is hidden, and the test does not take it. -/
theorem listed_hidden_not_isSource :
    hiddenFileTree.Proper ∧ Listed hiddenFileTree "/app" {} "/app/src/.a.ts" ∧
      isSource "/app" "/app/src/.a.ts" {} = false := by
  refine ⟨by decide +kernel, ⟨"/app/src/.a.ts", by decide +kernel, rfl⟩, by decide +kernel⟩

end TextHarvest.Scan
