import TextHarvest.Proofs.Files.Pattern

/-!
# Where a walk after a pattern leads

Whether a directory matches a pattern can be said without a tree: its names match the components
one by one. A walk finds the directories of the tree that match in this way, all of them and no
others; its fuel lasts, since the way to a directory is no longer than the number of directories.

Main result: `mem_directories_iff`.
-/

namespace TextHarvest.Glob

open TextHarvest.Path (absolute AreNames)

/-! ## Names that match -/

/-- Whether names match the components of a pattern one by one. A recursive component stands for any
number of names before another component, and for one or more at the end. -/
def leads : List Glob → List String → Bool
  | gs, [] => gs.isEmpty
  | [], _ :: _ => false
  | g :: gs, name :: names =>
    if g.isRecursive then
      leads (g :: gs.dropWhile isRecursive) names ||
        match gs.dropWhile isRecursive with
        | [] => names.isEmpty
        | h :: after => h.isMatch name && leads after names
    else g.isMatch name && leads gs names

variable {g : Glob} {gs : List Glob} {name : String} {names : List String}

/-- Without names only no patterns lead on. -/
theorem leads_nil_right (gs : List Glob) : leads gs [] = gs.isEmpty := by
  cases gs <;> simp [leads]

/-- Without patterns only no names are reached. -/
theorem leads_nil_left (names : List String) : leads [] names = names.isEmpty := by
  cases names <;> simp [leads]

/-- A pattern of one component takes one name. -/
theorem leads_cons (hg : g.isRecursive = false) :
    leads (g :: gs) (name :: names) = (g.isMatch name && leads gs names) := by
  simp [leads, hg]

/-- How names begin that match a component and those behind it. -/
def leadsOn (gs : List Glob) (name : String) (names : List String) : Bool :=
  match gs with
  | [] => names.isEmpty
  | h :: after => h.isMatch name && leads after names

/-- A recursive pattern takes one name or more. -/
theorem leads_recursive (hg : g.isRecursive = true) :
    leads (g :: gs) (name :: names) =
      (leads (g :: gs.dropWhile isRecursive) names ||
        leadsOn (gs.dropWhile isRecursive) name names) := by
  simp only [leads, hg, if_true]
  rfl

/-- Names as patterns lead to these names. -/
theorem leads_literals (base : List String) (gs : List Glob) (names : List String) :
    leads (base.map literal ++ gs) names = true ↔
      ∃ more, names = base ++ more ∧ leads gs more = true := by
  -- a literal matches its own name only, so both lists go on together
  induction base generalizing names with
  | nil => simp
  | cons n base ih =>
    cases names with
    | nil => simp [leads_nil_right]
    | cons m names =>
      rw [List.map_cons, List.cons_append, leads_cons (isRecursive_literal n), Bool.and_eq_true,
        isMatch_literal, ih]
      simp only [List.cons_append, List.cons.injEq]
      constructor
      · rintro ⟨rfl, more, rfl, hmore⟩
        exact ⟨more, ⟨rfl, rfl⟩, hmore⟩
      · rintro ⟨more, ⟨rfl, rfl⟩, hmore⟩
        exact ⟨rfl, more, rfl, hmore⟩

/-! ## What a walk finds -/

/-- A directory below a place whose names match. -/
def Found (t : FileTree) (gs : List Glob) (base : Place) (p : String) : Prop :=
  ∃ names, leads gs names = true ∧ t.isDirectoryAt (base ++ names) = true ∧
    p = absolute (base ++ names)

section Sound

variable {t : FileTree} {fuel : Nat} {base : Place} {p : String} (ht : t.Proper)
  (hfill : ∀ gs base p, (∀ g ∈ gs, Ordinary g) → AreNames base →
    p ∈ fill t fuel gs (absolute base) → Found t gs base p)

include ht hfill

/-- What a walk finds further on is led to by its patterns. -/
theorem found_of_mem_onward (hgs : ∀ g ∈ gs, Ordinary g) (hbase : AreNames base)
    (hp : p ∈ onward t fuel gs (absolute base)) : Found t gs base p := by
  rw [onward] at hp
  split at hp
  · rename_i hempty
    rw [ht.isDirectory_absolute hbase, List.mem_ite_nil_right, List.mem_singleton] at hp
    exact ⟨[], by rw [leads_nil_right, hempty], by simpa using hp.1, by simpa using hp.2⟩
  · exact hfill gs base p hgs hbase hp

/-- What a walk finds on its way down. -/
theorem exists_of_mem_descend (hgs : ∀ g ∈ gs, Ordinary g) (hbase : AreNames (base ++ [name]))
    (hp : p ∈ descend t fuel gs (absolute (base ++ [name])) name) :
    ∃ names, leadsOn gs name names = true ∧ t.isDirectoryAt (base ++ name :: names) = true ∧
      p = absolute (base ++ name :: names) := by
  cases gs with
  | nil => cases hp
  | cons g gs =>
    rw [descend, List.mem_ite_nil_right] at hp
    obtain ⟨names, hleads, hdirectory, hp'⟩ :=
      found_of_mem_onward ht hfill (fun g' hg' => hgs g' (List.mem_cons_of_mem _ hg')) hbase hp.2
    refine ⟨names, ?_, by simpa using hdirectory, by simpa using hp'⟩
    rw [leadsOn, hp.1, hleads]
    rfl

/-- What a walk finds at an entry is led to by its patterns. -/
theorem found_of_mem_visit (hgs : ∀ g ∈ gs, Ordinary g) (hbase : AreNames base)
    (hname : Path.IsName name) (hp : p ∈ visit t (fuel + 1) gs (absolute base) name) :
    Found t gs base p := by
  have hnext := hbase.concat hname
  cases gs with
  | nil =>
    rw [visit_nil] at hp
    cases hp
  | cons g gs =>
    have hrest : ∀ g' ∈ gs.dropWhile isRecursive, Ordinary g' := fun g' hg' =>
      hgs g' (List.mem_cons_of_mem _ (mem_of_mem_dropWhile hg'))
    have hagain : ∀ g' ∈ g :: gs.dropWhile isRecursive, Ordinary g' :=
      List.forall_mem_cons.mpr ⟨hgs g List.mem_cons_self, hrest⟩
    rw [visit_cons, Path.join_absolute_name hbase hname] at hp
    dsimp only at hp
    split at hp
    · rename_i hg
      -- one name deeper the recursive component stands for more names
      have hdeeper : p ∈ fill t fuel (g :: gs.dropWhile isRecursive) (absolute (base ++ [name])) →
          Found t (g :: gs) base p := by
        intro hp
        obtain ⟨names, hleads, hdirectory, rfl⟩ := hfill _ _ p hagain hnext hp
        refine ⟨name :: names, ?_, by simpa using hdirectory, by simp⟩
        rw [leads_recursive hg, hleads, Bool.true_or]
      split at hp
      · rename_i hempty
        rw [List.mem_ite_nil_right, List.mem_cons, List.mem_ite_nil_right] at hp
        rcases hp with ⟨hdirectory, rfl | hp⟩
        · -- at the end of a pattern the component stands for this name alone
          rw [ht.isDirectory_absolute hnext] at hdirectory
          refine ⟨[name], ?_, hdirectory, rfl⟩
          rw [leads_recursive hg, List.isEmpty_iff.mp hempty]
          simp [leadsOn]
        · exact hdeeper hp.2
      · rw [List.mem_append, List.mem_ite_nil_right] at hp
        rcases hp with hp | hp
        · exact hdeeper hp.2
        · -- or it stands for no name, and the next component has to match this one
          obtain ⟨names, hleads, hdirectory, rfl⟩ := exists_of_mem_descend ht hfill hrest hnext hp
          exact ⟨name :: names, by rw [leads_recursive hg, hleads, Bool.or_true], hdirectory, rfl⟩
    · rename_i hg
      obtain ⟨names, hleads, hdirectory, rfl⟩ := exists_of_mem_descend ht hfill hgs hnext hp
      exact ⟨name :: names, by rw [leads_cons (by simpa using hg)]; exact hleads, hdirectory, rfl⟩

/-- What a walk finds at a directory is led to, given it for its entries. -/
theorem found_of_mem_fill
    (hvisit : ∀ gs base name p, (∀ g ∈ gs, Ordinary g) → AreNames base → Path.IsName name →
      p ∈ visit t fuel gs (absolute base) name → Found t gs base p)
    (hgs : ∀ g ∈ gs, Ordinary g) (hbase : AreNames base)
    (hp : p ∈ fill t (fuel + 1) gs (absolute base)) : Found t gs base p := by
  cases gs with
  | nil =>
    rw [fill_nil] at hp
    cases hp
  | cons g gs =>
    have hg := hgs g List.mem_cons_self
    have hrest : ∀ g' ∈ gs, Ordinary g' := fun g' hg' => hgs g' (List.mem_cons_of_mem _ hg')
    rw [fill_cons] at hp
    cases hplain : g.plain? with
    | some s =>
      -- a component without special signs leads to the child of its name
      have hs := hg.isName s hplain
      have hnext := hbase.concat hs
      simp only [hplain] at hp
      rw [List.mem_ite_nil_right, Path.join_absolute_name hbase hs] at hp
      obtain ⟨names, hleads, hdirectory, rfl⟩ := found_of_mem_onward ht hfill hrest hnext hp.2
      refine ⟨s :: names, ?_, by simpa using hdirectory, by simp⟩
      rw [plain?_eq_some hplain, leads_cons (isRecursive_literal s), isMatch_literal.mpr rfl,
        hleads]
      rfl
    | none =>
      simp only [hplain] at hp
      cases hplace : t.place? (absolute base) with
      | none => simp [hplace] at hp
      | some place =>
        -- every other component is tried on the children, and not on the two dots
        simp only [hplace] at hp
        rw [List.mem_ite_nil_right, if_neg (by simpa using hg.undotted hplain),
          List.append_nil] at hp
        obtain ⟨name, hname, hp⟩ := List.mem_flatMap.mp hp.2
        exact hvisit _ _ name p hgs hbase (isName_of_mem_children ht hname) hp

end Sound

/-- A walk finds directories whose names match. -/
theorem found_of_mem_walk {t : FileTree} (ht : t.Proper) (fuel : Nat) :
    (∀ gs base p, (∀ g ∈ gs, Ordinary g) → AreNames base → p ∈ fill t fuel gs (absolute base) →
        Found t gs base p) ∧
      ∀ gs base name p, (∀ g ∈ gs, Ordinary g) → AreNames base → Path.IsName name →
        p ∈ visit t fuel gs (absolute base) name → Found t gs base p := by
  -- both parts of a walk call each other with less fuel
  induction fuel with
  | zero =>
    refine ⟨?_, ?_⟩
    · intro gs base p _ _ hp
      rw [fill] at hp
      cases hp
    · intro gs base name p _ _ _ hp
      rw [visit] at hp
      cases hp
  | succ fuel ih =>
    obtain ⟨hfill, hvisit⟩ := ih
    exact ⟨fun _ _ _ hgs hbase hp => found_of_mem_fill ht hfill hvisit hgs hbase hp,
      fun _ _ _ _ hgs hbase hname hp => found_of_mem_visit ht hfill hgs hbase hname hp⟩

/-! ## What a walk does not miss -/

/-- What stands one name below is a child. -/
theorem mem_children {t : FileTree} {place : Place} {e : FileEntry}
    (h : t.entry? (place ++ [name]) = some e) : name ∈ t.children place := by
  have hentry := FileTree.mem_entries_of_eq_some (by simp) h
  exact List.mem_filterMap.mpr ⟨_, hentry, by simp⟩

section Complete

variable {t : FileTree} {fuel : Nat} {base : Place} (ht : t.Proper)

include ht

/-- Above a directory are directories. -/
theorem isDirectoryAt_above (h : t.isDirectoryAt (base ++ name :: names) = true) :
    t.isDirectoryAt base = true ∧ t.isDirectoryAt (base ++ [name]) = true := by
  have habove : ∀ above, above <+: base ++ name :: names → t.isDirectoryAt above = true := by
    intro above hstart
    by_cases hsame : above = base ++ name :: names
    · rwa [hsame]
    · exact ht.isDirectoryAt_of_prefix (FileTree.isDirectoryAt_iff.mp h) hstart hsame
  exact ⟨habove base (List.prefix_append _ _), habove _ ⟨names, by simp⟩⟩

variable (hfill : ∀ gs base names, gs ≠ [] → leads gs names = true →
    t.isDirectoryAt (base ++ names) = true → 2 * names.length ≤ fuel →
    absolute (base ++ names) ∈ fill t fuel gs (absolute base))

include hfill

/-- A walk that goes on misses no directory. -/
theorem mem_onward (hleads : leads gs names = true)
    (hdirectory : t.isDirectoryAt (base ++ names) = true) (hfuel : 2 * names.length ≤ fuel) :
    absolute (base ++ names) ∈ onward t fuel gs (absolute base) := by
  rw [onward]
  by_cases hgs : gs = []
  · subst hgs
    rw [leads_nil_left, List.isEmpty_iff] at hleads
    subst hleads
    rw [List.append_nil] at hdirectory ⊢
    have hbase := ht.areNames (FileTree.isDirectoryAt_iff.mp hdirectory)
    simp [ht.isDirectory_absolute hbase, hdirectory]
  · rw [if_neg (by simpa using hgs)]
    exact hfill gs base names hgs hleads hdirectory hfuel

/-- A walk that goes down misses no directory. -/
theorem mem_descend (hgs : gs ≠ []) (hleads : leadsOn gs name names = true)
    (hdirectory : t.isDirectoryAt (base ++ name :: names) = true)
    (hfuel : 2 * names.length ≤ fuel) :
    absolute (base ++ name :: names) ∈ descend t fuel gs (absolute (base ++ [name])) name := by
  cases gs with
  | nil => exact absurd rfl hgs
  | cons g gs =>
    rw [leadsOn, Bool.and_eq_true] at hleads
    have hbelow := mem_onward ht hfill hleads.2
      (by simpa using hdirectory : t.isDirectoryAt (base ++ [name] ++ names) = true) hfuel
    rw [descend, if_pos hleads.1]
    simpa using hbelow

/-- A walk at an entry misses no directory. -/
theorem mem_visit (hleads : leads gs (name :: names) = true)
    (hdirectory : t.isDirectoryAt (base ++ name :: names) = true)
    (hfuel : 2 * names.length ≤ fuel) :
    absolute (base ++ name :: names) ∈ visit t (fuel + 1) gs (absolute base) name := by
  obtain ⟨hbase, hname⟩ := isDirectoryAt_above ht hdirectory
  have hnext := ht.areNames (FileTree.isDirectoryAt_iff.mp hname)
  have hjoin := Path.join_absolute_name (Path.areNames_append.mp hnext).1
    (hnext name (by simp))
  cases gs with
  | nil => cases hleads
  | cons g gs =>
    rw [visit_cons, hjoin]
    dsimp only
    by_cases hg : g.isRecursive = true
    · rw [if_pos hg, ht.isDirectory_absolute hnext, hname]
      rw [leads_recursive hg, Bool.or_eq_true] at hleads
      rcases hleads with hleads | hleads
      · -- the recursive component stands for more names than this one
        have hbelow := hfill (g :: gs.dropWhile isRecursive) (base ++ [name]) names (by simp) hleads
          (by simpa using hdirectory) hfuel
        rw [List.append_assoc, List.singleton_append] at hbelow
        split <;> simp [hbelow]
      · by_cases hrest : gs.dropWhile isRecursive = []
        · -- the recursive component is the last one and ends here
          rw [hrest, leadsOn, List.isEmpty_iff] at hleads
          simp [hrest, hleads]
        · rw [if_neg (by simpa using hrest), List.mem_append]
          exact Or.inr (mem_descend ht hfill hrest hleads hdirectory hfuel)
    · rw [if_neg hg]
      rw [leads_cons (by simpa using hg)] at hleads
      exact mem_descend ht hfill (by simp) hleads hdirectory hfuel

/-- A walk at a directory misses none, given it for its entries. -/
theorem mem_fill
    (hvisit : ∀ gs base name names, leads gs (name :: names) = true →
      t.isDirectoryAt (base ++ name :: names) = true → 2 * names.length + 1 ≤ fuel →
      absolute (base ++ name :: names) ∈ visit t fuel gs (absolute base) name)
    (hgs : gs ≠ []) (hleads : leads gs names = true)
    (hdirectory : t.isDirectoryAt (base ++ names) = true) (hfuel : 2 * names.length ≤ fuel + 1) :
    absolute (base ++ names) ∈ fill t (fuel + 1) gs (absolute base) := by
  cases names with
  | nil =>
    rw [leads_nil_right, List.isEmpty_iff] at hleads
    exact absurd hleads hgs
  | cons name names =>
    rw [List.length_cons] at hfuel
    obtain ⟨hbase, hname⟩ := isDirectoryAt_above ht hdirectory
    have hentry := FileTree.isDirectoryAt_iff.mp hname
    have hnext := ht.areNames hentry
    have hnames := (Path.areNames_append.mp hnext).1
    have hisName : Path.IsName name := hnext name (by simp)
    cases gs with
    | nil => exact absurd rfl hgs
    | cons g gs =>
      rw [fill_cons]
      cases hplain : g.plain? with
      | some s =>
        -- the only name that matches is the one that is spelled
        rw [plain?_eq_some hplain, leads_cons (isRecursive_literal s), Bool.and_eq_true,
          isMatch_literal] at hleads
        obtain ⟨rfl, hleads⟩ := hleads
        have hbelow := mem_onward ht hfill hleads
          (by simpa using hdirectory : t.isDirectoryAt (base ++ [name] ++ names) = true) (by omega)
        dsimp only
        rw [Path.join_absolute_name hnames hisName, ht.pathExists_absolute hnext, hentry]
        simpa [hisName.ne_current, hisName.ne_parent] using hbelow
      | none =>
        dsimp only
        rw [ht.place?_absolute (FileTree.isDirectoryAt_iff.mp hbase)]
        dsimp only
        rw [ht.isDirectory_absolute hnames, hbase, if_pos rfl, List.mem_append]
        refine Or.inl (List.mem_flatMap.mpr ⟨name, mem_children hentry, ?_⟩)
        exact hvisit _ base name names hleads hdirectory (by omega)

end Complete

/-- A walk with enough fuel finds every directory whose names match. -/
theorem mem_walk {t : FileTree} (ht : t.Proper) (fuel : Nat) :
    (∀ gs base names, gs ≠ [] → leads gs names = true → t.isDirectoryAt (base ++ names) = true →
        2 * names.length ≤ fuel → absolute (base ++ names) ∈ fill t fuel gs (absolute base)) ∧
      ∀ gs base name names, leads gs (name :: names) = true →
        t.isDirectoryAt (base ++ name :: names) = true → 2 * names.length + 1 ≤ fuel →
        absolute (base ++ name :: names) ∈ visit t fuel gs (absolute base) name := by
  -- each name is paid with two steps, one that lists its directory and one that goes on from it
  induction fuel with
  | zero =>
    refine ⟨?_, ?_⟩
    · intro gs base names hgs hleads _ hfuel
      cases names with
      | nil =>
        rw [leads_nil_right, List.isEmpty_iff] at hleads
        exact absurd hleads hgs
      | cons name names => simp at hfuel
    · intro gs base name names _ _ hfuel
      omega
  | succ fuel ih =>
    obtain ⟨hfill, hvisit⟩ := ih
    exact ⟨fun _ _ _ hgs hleads hdirectory hfuel =>
        mem_fill ht hfill hvisit hgs hleads hdirectory hfuel,
      fun _ _ _ _ hleads hdirectory hfuel =>
        mem_visit ht hfill hleads hdirectory (by omega)⟩

/-! ## Patterns below a directory -/

/-- Names in front of a pattern are read as themselves. -/
theorem mapM_literal {base : List String} (hbase : ∀ name ∈ base, isPattern name = false)
    (pieces : List String) :
    (base ++ pieces).mapM parse? = (pieces.mapM parse?).map (base.map literal ++ ·) := by
  induction base with
  | nil => simp
  | cons name base ih =>
    have ih := ih fun n hn => hbase n (List.mem_cons_of_mem _ hn)
    rw [List.cons_append, List.mapM_cons, ih, parse?_literal (hbase name List.mem_cons_self)]
    cases pieces.mapM parse? <;> simp

/-- A pattern that is written with pieces that are passed by names. -/
def Tidy (inc : String) : Prop :=
  ∀ piece ∈ pieces inc, piece ≠ "" ∧ piece.toList.head? ≠ some '.'

instance (inc : String) : Decidable (Tidy inc) :=
  inferInstanceAs (Decidable (∀ piece ∈ pieces inc, piece ≠ "" ∧ piece.toList.head? ≠ some '.'))

/-- A tidy pattern is not absolute. -/
theorem Tidy.isAbsolute {inc : String} (h : Tidy inc) : Path.isAbsolute inc = false :=
  isAbsolute_of_pieces fun hempty => (h "" hempty).1 rfl

/-- If a pattern can be read, so can each of its pieces. -/
theorem isSome_of_mapM {pieces : List String} {gs : List Glob}
    (h : pieces.mapM parse? = some gs) : ∀ piece ∈ pieces, (parse? piece).isSome = true := by
  induction pieces generalizing gs with
  | nil => simp
  | cons piece pieces ih =>
    simp only [List.mapM_cons, Option.bind_eq_bind, Option.bind_eq_some_iff] at h
    obtain ⟨g, hg, more, hmore, -⟩ := h
    exact List.forall_mem_cons.mpr ⟨by rw [hg]; rfl, ih hmore⟩

/-- A pattern without parts has no pieces. -/
theorem eq_nil_of_mapM {pieces : List String} (h : pieces.mapM parse? = some []) : pieces = [] := by
  cases pieces with
  | nil => rfl
  | cons piece pieces =>
    simp only [List.mapM_cons, Option.bind_eq_bind, Option.bind_eq_some_iff] at h
    obtain ⟨g, -, more, -, hnil⟩ := h
    cases hnil

/-- The parts of a tidy pattern are ordinary. -/
theorem Tidy.ordinary {inc : String} (h : Tidy inc) (hgs : (pieces inc).mapM parse? = some gs) :
    ∀ g ∈ gs, Ordinary g := by
  intro g hg
  obtain ⟨piece, hpiece, hparse⟩ := exists_mem_of_mapM hgs hg
  obtain ⟨hne, hdot⟩ := h piece hpiece
  have hslash := Path.not_mem_of_mem_splitText (pieces_subset inc hpiece)
  exact ordinary_of_parse? hslash hne hdot hparse

/-- A tidy pattern can be read below a directory. -/
theorem parse?_join_isSome {base : Place} (hbase : AreNames base)
    (hplain : ∀ name ∈ base, isPattern name = false) {inc : String} (h : Tidy inc)
    (hgs : (pieces inc).mapM parse? = some gs) :
    (parse? (Path.join (absolute base) inc)).isSome = true := by
  refine parse?_isSome_of_splitText ?_
  rw [splitText_join hbase h.isAbsolute]
  intro piece hpiece
  rcases List.mem_cons.mp hpiece with rfl | hpiece
  · rfl
  · -- pieces of the base are literal, the others are those of the pattern
    rcases List.mem_append.mp hpiece with hpiece | hpiece
    · rw [parse?_literal (hplain piece hpiece)]
      rfl
    · rcases mem_splitText hpiece with hpiece | rfl
      · exact isSome_of_mapM hgs piece hpiece
      · rfl

/-- Names as patterns are followed first. -/
theorem found_literals {t : FileTree} {base : Place} {p : String} :
    Found t (base.map literal ++ gs) [] p ↔ Found t gs base p := by
  constructor
  · rintro ⟨names, hleads, hdirectory, hp⟩
    obtain ⟨more, rfl, hmore⟩ := (leads_literals base gs names).mp hleads
    exact ⟨more, hmore, hdirectory, hp⟩
  · rintro ⟨names, hleads, hdirectory, hp⟩
    exact ⟨base ++ names, (leads_literals base gs _).mpr ⟨names, rfl, hleads⟩, hdirectory, hp⟩

/-- The directories that a pattern below a directory matches are those whose names match the
components of the pattern. -/
theorem mem_directories_iff {t : FileTree} (ht : t.Proper) {base : Place} (hbase : AreNames base)
    (hplain : ∀ name ∈ base, isPattern name = false) {inc p : String}
    (hpattern : isPattern inc = true) (htidy : Tidy inc) :
    p ∈ directories t (Path.join (absolute base) inc) ↔
      ∃ gs, (pieces inc).mapM parse? = some gs ∧ Found t gs base p := by
  rw [directories, pieces_join hbase htidy.isAbsolute, List.drop_one, List.tail_cons,
    mapM_literal hplain]
  cases hgs : (pieces inc).mapM parse? with
  | none => simp
  | some gs =>
    obtain ⟨whole, hwhole⟩ :=
      Option.isSome_iff_exists.mp (parse?_join_isSome hbase hplain htidy hgs)
    -- the walk starts at the root and passes the names of the directory first
    have hordinary : ∀ g ∈ base.map literal ++ gs, Ordinary g := by
      intro g hg
      rcases List.mem_append.mp hg with hg | hg
      · obtain ⟨name, hname, rfl⟩ := List.mem_map.mp hg
        exact ordinary_literal (hbase name hname)
      · exact htidy.ordinary hgs g hg
    simp only [hwhole, Option.map_some, Option.some.injEq, exists_eq_left']
    rw [← found_literals]
    constructor
    · exact (found_of_mem_walk ht _).1 _ [] p hordinary (List.forall_mem_nil _)
    · rintro ⟨names, hleads, hdirectory, rfl⟩
      have hne : base.map literal ++ gs ≠ [] := by
        intro hnil
        rw [(List.append_eq_nil_iff.mp hnil).2] at hgs
        exact pieces_ne_nil hpattern (eq_nil_of_mapM hgs)
      refine (mem_walk ht _).1 _ [] names hne hleads hdirectory ?_
      have hlength := ht.length_le_directoryCount hdirectory
      exact Nat.mul_le_mul (by omega) (Nat.le_succ_of_le hlength)

end TextHarvest.Glob
