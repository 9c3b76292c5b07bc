import Mathlib.Data.List.Nodup
import TextHarvest.Proofs.Files.Beside

/-!
# Paths that spell a place

Each place has one plain spelling: its names from the root on, with a slash before each. Names that
are put behind such a path give such a path again, the part below a directory is spelled by the
names that are left, and in a tree as a disk has it the path leads to its place whenever something
stands there.

Main results:

* `foldl_join_absolute` — names behind a plain path.
* `relativeTo?_absolute` — the part of a plain path below another one.
* `Proper.lookup?_absolute` — what a plain path leads to.
-/

namespace TextHarvest

namespace Path

/-- The path that spells a place. -/
def absolute (names : Place) : String :=
  "/" ++ "/".intercalate names

/-- Names that can stand between slashes. -/
abbrev AreNames (names : List String) : Prop :=
  ∀ name ∈ names, IsName name

section Names

variable {names : List String}

/-- No name has a slash in it. -/
theorem AreNames.slash_not_mem (h : AreNames names) : ∀ name ∈ names, '/' ∉ name.toList :=
  fun name hname => (h name hname).slash_not_mem

/-- Names one after the other. -/
theorem areNames_append {base : List String} :
    AreNames (base ++ names) ↔ AreNames base ∧ AreNames names :=
  List.forall_mem_append

/-- One more name. -/
theorem AreNames.concat {base : List String} (hbase : AreNames base) {name : String}
    (h : IsName name) : AreNames (base ++ [name]) :=
  areNames_append.mpr ⟨hbase, List.forall_mem_singleton.mpr h⟩

/-- A name stands for something. -/
theorem IsName.isVoid {name : String} (h : IsName name) : isVoid name = false := by
  simp [Path.isVoid, h.ne_empty, h.ne_current]

/-- Names are their own components. -/
theorem componentsOf_names (h : AreNames names) :
    componentsOf names = names.map Component.name := by
  rw [componentsOf, ← List.filterMap_eq_map]
  exact List.filterMap_congr fun name hname => (h name hname).componentOf? false

/-- Names between slashes are the components of a path. -/
theorem components_intercalate (h : AreNames names) :
    components ("/".intercalate names) = names.map Component.name := by
  cases names with
  | nil => rfl
  | cons name more =>
    have hname := h name List.mem_cons_self
    have hmore : AreNames more := fun n hn => h n (List.mem_cons_of_mem _ hn)
    rw [components_eq (splitText_intercalate (by simp) h.slash_not_mem), if_neg hname.ne_empty,
      hname.componentOf?, componentsOf_names hmore]
    rfl

/-- Joined names are not absolute. -/
theorem isAbsolute_names (h : AreNames names) : isAbsolute ("/".intercalate names) = false := by
  refine isAbsolute_intercalate h.slash_not_mem ?_
  intro name hname
  exact (h name (List.mem_of_mem_head? hname)).ne_empty

/-- The components of a place: the root and its names. -/
theorem components_absolute (h : AreNames names) :
    components (absolute names) = .root :: names.map Component.name := by
  rw [absolute, components_slash_start, componentsOf_splitText_intercalate h.slash_not_mem,
    componentsOf_names h]

/-- Names lead down from a place. -/
theorem foldl_lead_names (names : List String) (place : Place) :
    (names.map Component.name).foldl Component.lead place = place ++ names := by
  induction names generalizing place with
  | nil => simp
  | cons name names ih =>
    rw [List.map_cons, List.foldl_cons, ih]
    simp [Component.lead]

/-- The place of the path of a place is that place. -/
theorem place_absolute (h : AreNames names) : place (absolute names) = names := by
  rw [place, components_absolute h, List.foldl_cons, foldl_lead_names]
  rfl

/-- A plain path has one place only. -/
theorem eq_of_components_absolute {p q : List String} (hp : AreNames p) (hq : AreNames q)
    (h : components (absolute p) = components (absolute q)) : p = q := by
  rw [← place_absolute hp, ← place_absolute hq, place_eq_of_components_eq h]

/-! ## Slashes at the end of a path -/

/-- A slash at the end adds no component. -/
theorem components_append_slash {path : String} (h : path ≠ "") :
    components (path ++ "/") = components path := by
  have hend := components_slash h ""
  rw [String.append_empty] at hend
  rw [hend]
  simp [show splitText '/' "" = [""] from rfl, componentsOf, componentOf?]

/-- Only the front of a path tells whether it is absolute. -/
theorem isAbsolute_append {path : String} (h : path ≠ "") (more : String) :
    isAbsolute (path ++ more) = isAbsolute path := by
  have hne : path.toList ≠ [] := fun hnil => h (String.toList_eq_nil_iff.mp hnil)
  rw [isAbsolute, isAbsolute, String.toList_append, List.head?_append_of_ne_nil _ hne]

/-- A path that is put behind another one keeps its end. -/
theorem getLast?_join {path : String} (h : path ≠ "") (base : String) :
    (join base path).toList.getLast? = path.toList.getLast? := by
  have hne : path.toList ≠ [] := fun hnil => h (String.toList_eq_nil_iff.mp hnil)
  rw [join]
  split
  · rfl
  · split <;> rw [String.toList_append, List.getLast?_append_of_ne_nil _ hne]

/-- More behind a path that is put behind another one. -/
theorem join_append {base path : String} (h : path ≠ "") (more : String) :
    join base (path ++ more) = join base path ++ more := by
  rw [join, join, isAbsolute_append h]
  split
  · rfl
  · split <;> simp only [String.append_assoc]

/-! ## Names behind a path -/

/-- Joined names do not end in a slash. -/
theorem getLast?_intercalate (h : AreNames names) :
    ("/".intercalate names).toList.getLast? ≠ some '/' := by
  intro hlast
  obtain rfl | ⟨front, name, rfl⟩ := List.eq_nil_or_concat names
  · simp at hlast
  · have hname := h name (by simp)
    -- the last character is that of the last name
    have hend : ∃ text, ("/".intercalate (front.concat name)).toList = text ++ name.toList := by
      rw [List.concat_eq_append]
      by_cases hfront : front = []
      · exact ⟨[], by simp [hfront]⟩
      · rw [String.intercalate_append_of_ne_nil hfront (by simp)]
        exact ⟨("/".intercalate front ++ "/").toList, by simp⟩
    obtain ⟨text, htext⟩ := hend
    have hne : name.toList ≠ [] := fun hnil => hname.ne_empty (String.toList_eq_nil_iff.mp hnil)
    rw [htext, List.getLast?_append_of_ne_nil _ hne] at hlast
    -- and a name holds no slash
    exact hname.slash_not_mem (List.mem_of_getLast? hlast)

/-- Names leave something when they are joined. -/
theorem intercalate_ne_empty (h : AreNames names) (hne : names ≠ []) :
    "/".intercalate names ≠ "" := by
  intro hempty
  have hcomponents := components_intercalate h
  rw [hempty, components_eq_nil_iff.mpr rfl] at hcomponents
  exact hne (List.map_eq_nil_iff.mp hcomponents.symm)

/-- The path of a place below the root does not end in a slash. -/
theorem getLast?_absolute (h : AreNames names) (hne : names ≠ []) :
    (absolute names).toList.getLast? ≠ some '/' := by
  have hchars : ("/".intercalate names).toList ≠ [] := fun hnil =>
    intercalate_ne_empty h hne (String.toList_eq_nil_iff.mp hnil)
  rw [absolute, String.toList_append, List.getLast?_append_of_ne_nil _ hchars]
  exact getLast?_intercalate h

/-- The empty path behind a plain path puts a slash at its end. -/
theorem join_absolute_empty {base : Place} (hbase : AreNames base) (hne : base ≠ []) :
    join (absolute base) "" = absolute base ++ "/" := by
  rw [join, if_neg (by simp [isAbsolute, absolute]),
    if_neg (by simpa using getLast?_absolute hbase hne), String.append_empty]

/-- A path of names behind a plain path. -/
theorem join_absolute {base : Place} (hbase : AreNames base) (h : AreNames names)
    (hne : names ≠ []) :
    join (absolute base) ("/".intercalate names) = absolute (base ++ names) := by
  have hempty : absolute base ≠ "" := by simp [absolute]
  rw [join, isAbsolute_names h, Bool.false_or, if_neg (by simpa using hempty)]
  by_cases hroot : base = []
  · -- the root is a slash already, and no other one is put behind it
    subst hroot
    rfl
  · rw [if_neg (by simpa using getLast?_absolute hbase hroot), absolute, absolute,
      String.intercalate_append_of_ne_nil hroot hne]
    simp only [String.append_assoc]

/-- A name is joined to the path of a place. -/
theorem join_absolute_name {base : Place} (hbase : AreNames base) {name : String}
    (h : IsName name) : join (absolute base) name = absolute (base ++ [name]) := by
  have hjoin := join_absolute hbase (List.forall_mem_singleton.mpr h) (by simp)
  rwa [String.intercalate_singleton] at hjoin

/-- Names are joined to the path of a place one by one. -/
theorem foldl_join_absolute {base : Place} (hbase : AreNames base) (h : AreNames names) :
    names.foldl join (absolute base) = absolute (base ++ names) := by
  induction names generalizing base with
  | nil => simp
  | cons name names ih =>
    have hname := h name List.mem_cons_self
    rw [List.foldl_cons, join_absolute_name hbase hname,
      ih (hbase.concat hname) fun n hn => h n (List.mem_cons_of_mem _ hn), List.append_assoc,
      List.singleton_append]

/-- A slash at the end of a path changes nothing for the names behind it. -/
theorem join_slash {base : Place} (hbase : AreNames base) (hne : base ≠ []) {name : String}
    (h : IsName name) : join (absolute base ++ "/") name = absolute (base ++ [name]) := by
  rw [← join_absolute_name hbase h, join, join, isAbsolute_of_not_mem h.slash_not_mem,
    if_neg (by simp), if_pos (by simp), if_neg (by simp [absolute]),
    if_neg (by simpa using getLast?_absolute hbase hne)]

/-! ## The part below a path -/

/-- Of the names below a base, those behind it are left. -/
theorem dropComponents_names {base : List String} (hbase : AreNames base) (names : List String) :
    dropComponents base.length (base ++ names) = names := by
  induction base with
  | nil => simp [dropComponents]
  | cons name base ih =>
    rw [List.length_cons, List.cons_append, dropComponents,
      (hbase name List.mem_cons_self).isVoid, if_neg (by simp)]
    exact ih fun n hn => hbase n (List.mem_cons_of_mem _ hn)

/-- No name is void, so none is dropped in front. -/
theorem dropWhile_names (h : AreNames names) : names.dropWhile isVoid = names := by
  cases names with
  | nil => rfl
  | cons name names =>
    rw [List.dropWhile_cons_of_neg (by simp [(h name List.mem_cons_self).isVoid])]

/-- Nor is one dropped at the end. -/
theorem dropVoidEnd_names (h : AreNames names) : dropVoidEnd names = names := by
  rw [dropVoidEnd, dropWhile_names fun n hn => h n (List.mem_reverse.mp hn), List.reverse_reverse]

/-- The pieces of the path of a place. -/
theorem splitText_absolute (h : AreNames names) (hne : names ≠ []) :
    splitText '/' (absolute names) = "" :: names := by
  have hsplit := splitText_slash "" ("/".intercalate names)
  rw [String.empty_append, splitText_intercalate hne h.slash_not_mem] at hsplit
  exact hsplit

/-- A place is below another one just when its names go on from there. -/
theorem startsWith_absolute {base : Place} (hbase : AreNames base) (h : AreNames names) :
    startsWith (absolute names) (absolute base) = true ↔ base <+: names := by
  rw [startsWith_iff, components_absolute hbase, components_absolute h, List.cons_prefix_cons]
  simp only [true_and]
  exact List.prefix_map_iff_of_injective fun _ _ => Component.name.inj

/-- The names that are left spell the part of a path below another one. -/
theorem relativeTo?_absolute {base : Place} (hbase : AreNames base) (h : AreNames names)
    (hne : names ≠ []) :
    relativeTo? (absolute (base ++ names)) (absolute base) = some ("/".intercalate names) := by
  have hall : AreNames (base ++ names) := areNames_append.mpr ⟨hbase, h⟩
  have hbelow : startsWith (absolute (base ++ names)) (absolute base) = true :=
    (startsWith_absolute hbase hall).mpr (List.prefix_append _ _)
  rw [relativeTo?, if_pos hbelow, components_absolute hbase]
  simp only [List.length_map]
  rw [splitText_absolute hall (by simp [hne]), List.drop_one, List.tail_cons,
    dropComponents_names hbase, dropWhile_names h, dropVoidEnd_names h]

end Names

end Path

namespace FileTree

open TextHarvest.Path (absolute AreNames)

variable {t : FileTree} {place : Place}

/-! ## What stands at a place -/

/-- Something at a place that is not the root is an entry. -/
theorem mem_entries_of_eq_some (hne : place ≠ []) {e : FileEntry} (h : t.entry? place = some e) :
    (place, e) ∈ t.entries := by
  rw [ entry?, if_neg (by simpa using hne)] at h
  obtain ⟨front, rest, hentries, -⟩ := List.lookup_eq_some_iff.mp h
  simp [hentries]

/-- In a proper tree whatever is there stands at a place of names. -/
theorem Proper.areNames (ht : t.Proper) {e : FileEntry} (h : t.entry? place = some e) :
    AreNames place := by
  by_cases hne : place = []
  · subst hne
    exact List.forall_mem_nil _
  · exact ht.named _ (mem_entries_of_eq_some hne h)

/-- A directory is what is entered as one. -/
theorem isDirectoryAt_iff : t.isDirectoryAt place = true ↔ t.entry? place = some .directory := by
  rw [isDirectoryAt, beq_iff_eq]

/-- Above everything that stands somewhere are directories. -/
theorem Proper.isDirectoryAt_take (ht : t.Proper) {e : FileEntry} (h : t.entry? place = some e)
    {n : Nat} (hn : n < place.length) : t.isDirectoryAt (place.take n) = true := by
  have hne : place ≠ [] := by
    rintro rfl
    simp at hn
  exact ht.below _ (mem_entries_of_eq_some hne h) n hn

/-- Above whatever is there stand directories. -/
theorem Proper.isDirectoryAt_of_prefix (ht : t.Proper) {e : FileEntry}
    (h : t.entry? place = some e) {above : Place} (habove : above <+: place) (hne : above ≠ place) :
    t.isDirectoryAt above = true := by
  have hlength : above.length < place.length := by
    have hle := habove.length_le
    have hlt : above.length ≠ place.length := fun heq => hne (habove.eq_of_length heq)
    omega
  rw [List.prefix_iff_eq_take.mp habove]
  exact ht.isDirectoryAt_take h hlength

/-! ## Where plain paths lead -/

/-- Names are followed where each stands in a directory. -/
theorem follow?_names {names : List String}
    (h : ∀ n < names.length, t.isDirectoryAt (place ++ names.take n) = true) :
    t.follow? (names.map Path.Component.name) place = some (place ++ names) := by
  -- by induction on the names, each of which is a step down
  induction names generalizing place with
  | nil => simp [follow?]
  | cons name names ih =>
    have hhere : t.isDirectoryAt place = true := by
      simpa using h 0 (by simp)
    have hbelow : ∀ n < names.length,
        t.isDirectoryAt (place ++ [name] ++ names.take n) = true := by
      intro n hn
      simpa using h (n + 1) (by simpa using hn)
    rw [List.map_cons, follow?_cons, if_pos (Or.inr hhere), Path.Component.lead, ih hbelow]
    simp

/-- A plain path leads to its place when something stands there. -/
theorem Proper.place?_absolute (ht : t.Proper) {e : FileEntry} (h : t.entry? place = some e) :
    t.place? (absolute place) = some place := by
  rw [FileTree.place?, Path.components_absolute (ht.areNames h), follow?_cons, if_pos (Or.inl rfl)]
  exact follow?_names fun n hn => ht.isDirectoryAt_take h hn

/-- A plain path finds what stands at its place. -/
theorem Proper.lookup?_absolute (ht : t.Proper) (hplace : AreNames place) :
    t.lookup? (absolute place) = t.entry? place := by
  rw [FileTree.lookup?]
  cases hentry : t.entry? place with
  | some e =>
    rw [ht.place?_absolute hentry, Option.bind_some, hentry]
    cases e with
    | directory => rfl
    | file c =>
      -- a file does not stand at the root, so its path does not end in a slash
      have hne : place ≠ [] := by
        rintro rfl
        simp [ entry?] at hentry
      simp [Path.getLast?_absolute hplace hne]
  | none =>
    -- the path may still be followed, but then to the place where nothing stands
    cases hpath : t.place? (absolute place) with
    | none => rfl
    | some q =>
      have hq := place?_eq_place hpath
      rw [Path.place_absolute hplace] at hq
      rw [hq, Option.bind_some, hentry]

/-- The path of a place is a directory just when there is one at the place. -/
theorem Proper.isDirectory_absolute (ht : t.Proper) (hplace : AreNames place) :
    t.isDirectory (absolute place) = t.isDirectoryAt place := by
  rw [FileTree.isDirectory, ht.lookup?_absolute hplace, isDirectoryAt]

/-- The path of a place exists just when something is at the place. -/
theorem Proper.pathExists_absolute (ht : t.Proper) (hplace : AreNames place) :
    t.pathExists (absolute place) = (t.entry? place).isSome := by
  rw [FileTree.pathExists, ht.lookup?_absolute hplace]

/-- A slash at the end of a plain path does not change where it leads. -/
theorem place?_absolute_slash (t : FileTree) (place : Place) :
    t.place? (absolute place ++ "/") = t.place? (absolute place) := by
  rw [FileTree.place?, FileTree.place?, Path.components_append_slash (by simp [absolute])]

/-- With a slash at its end a plain path finds directories only. -/
theorem Proper.pathExists_slash (ht : t.Proper) (hplace : AreNames place) :
    t.pathExists (absolute place ++ "/") = t.isDirectoryAt place := by
  rw [FileTree.pathExists, FileTree.lookup?, place?_absolute_slash]
  -- a path with a slash behind it has to be a directory, which the proper tree knows already
  cases hpath : t.place? (absolute place) with
  | none =>
    rw [← ht.isDirectory_absolute hplace, FileTree.isDirectory, FileTree.lookup?, hpath]
    rfl
  | some q =>
    have hq := place?_eq_place hpath
    rw [Path.place_absolute hplace] at hq
    subst hq
    rw [Option.bind_some, isDirectoryAt]
    cases t.entry? q with
    | none => rfl
    | some e => cases e <;> simp

/-- The names on the way to a directory are at most as many as there are directories. -/
theorem Proper.length_le_directoryCount (ht : t.Proper) (h : t.isDirectoryAt place = true) :
    place.length ≤ t.directoryCount := by
  let above := (List.range place.length).map fun n => place.take (n + 1)
  have hnodup : above.Nodup := by
    refine List.Nodup.map_on ?_ List.nodup_range
    intro m hm n hn heq
    have hlength := congrArg List.length heq
    simp only [List.length_take, List.mem_range] at hlength hm hn
    omega
  -- each of these is an entry of its own, and a directory
  have hmem : above ⊆ (t.entries.filter (·.2 == .directory)).map Prod.fst := by
    intro q hq
    obtain ⟨n, hn, rfl⟩ := List.mem_map.mp hq
    rw [List.mem_range] at hn
    have hne : place.take (n + 1) ≠ [] := by
      intro hnil
      have hlength := congrArg List.length hnil
      simp only [List.length_take, List.length_nil] at hlength
      omega
    have hdirectory : t.isDirectoryAt (place.take (n + 1)) = true := by
      by_cases hall : place.take (n + 1) = place
      · rwa [hall]
      · exact ht.isDirectoryAt_of_prefix (isDirectoryAt_iff.mp h) (List.take_prefix _ _) hall
    have hentry := mem_entries_of_eq_some hne (isDirectoryAt_iff.mp hdirectory)
    exact List.mem_map.mpr ⟨_, List.mem_filter.mpr ⟨hentry, by simp⟩, rfl⟩
  have hle := hnodup.length_le_of_subset hmem
  rwa [List.length_map, List.length_range, List.length_map, ← List.countP_eq_length_filter] at hle

end FileTree

end TextHarvest
