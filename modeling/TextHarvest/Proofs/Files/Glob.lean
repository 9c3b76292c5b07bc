import TextHarvest.Files.Glob
import TextHarvest.Proofs.Except
import TextHarvest.Proofs.Files.Beside

/-!
# The directories that a pattern matches

A walk after a pattern returns directories only, and it goes on through directories only. So a tree
and the same tree without one of its files have the same matches: the file is tried, as a child of
its directory or by its name, and leads nowhere.

Main results:

* `isAbsolute_of_mem_directories` — matches are absolute paths.
* `directories_erase` — a file has no part in the matches.
-/

namespace TextHarvest.Glob

/-! ## Patterns of one component -/

/-- A pattern that spells no slash. -/
def Single (g : Glob) : Prop :=
  GlobToken.char '/' ∉ g.tokens

/-- Behind a set stands what stood behind it. -/
theorem mem_of_setBody? {cs set rest : List Char} (h : setBody? cs = some (set, rest)) {c : Char}
    (hc : c ∈ rest) : c ∈ cs := by
  cases cs with
  | nil => cases h
  | cons d cs =>
    rw [setBody?] at h
    cases hdrop : cs.dropWhile (· != ']') with
    | nil => simp [hdrop] at h
    | cons e es =>
      simp only [hdrop, Option.some.injEq, Prod.mk.injEq] at h
      obtain ⟨-, rfl⟩ := h
      have hmem : c ∈ cs.dropWhile (· != ']') := hdrop ▸ List.mem_cons_of_mem _ hc
      exact List.mem_cons_of_mem _ ((List.dropWhile_sublist _).subset hmem)

/-- No character is added with two stars. -/
theorem mem_of_mem_add {c : Char} {acc : List GlobToken}
    (h : .char c ∈ if 1 < acc.length && acc.head? == some .anyComponents then acc
      else .anyComponents :: acc) : .char c ∈ acc := by
  split at h
  · exact h
  · simpa using h

/-- A pattern spells only characters that it is written with. -/
theorem mem_of_readTokens {fuel pos : Nat} {prev : Option Char} {cs : List Char}
    {acc ts : List GlobToken} (h : readTokens fuel pos prev cs acc = .ok ts) {c : Char}
    (hc : .char c ∈ ts) : c ∈ cs ∨ .char c ∈ acc := by
  -- a step drops characters of the pattern or puts a token that is made of them into `acc`
  fun_induction readTokens fuel pos prev cs acc generalizing ts with
  | case1 => cases h
  | case2 fuel pos prev acc =>
    cases h
    exact Or.inr (List.mem_reverse.mp hc)
  | case3 fuel pos prev d cs acc hany ih =>
    rcases ih h hc with hmem | hmem
    · exact Or.inl (List.mem_cons_of_mem _ hmem)
    · exact Or.inr (by simpa using hmem)
  | case4 => cases h
  | case5 fuel pos prev d acc hany hstar hprev add =>
    cases h
    exact Or.inr (mem_of_mem_add (List.mem_reverse.mp hc))
  | case6 =>
    rename_i ih
    rcases ih h hc with hmem | hmem
    · exact Or.inl (by simp [hmem])
    · exact Or.inr (mem_of_mem_add hmem)
  | case7 => cases h
  | case8 => cases h
  | case9 fuel pos prev d acc hany hstar rest htwo hone ih =>
    rcases ih h hc with hmem | hmem
    · exact Or.inl (List.mem_cons_of_mem _ hmem)
    · exact Or.inr (by simpa using hmem)
  | case10 fuel pos prev d acc hany hstar hset body set rest hbody ih =>
    rcases ih h hc with hmem | hmem
    · exact Or.inl (by simp [mem_of_setBody? hbody hmem])
    · exact Or.inr (by simpa using hmem)
  | case11 => cases h
  | case12 fuel pos prev d acc hany hstar hset body hbang set rest hbody ih =>
    rcases ih h hc with hmem | hmem
    · exact Or.inl (List.mem_cons_of_mem _ (mem_of_setBody? hbody hmem))
    · exact Or.inr (by simpa using hmem)
  | case13 => cases h
  | case14 fuel pos prev d cs acc hany hstar hset ih =>
    rcases ih h hc with hmem | hmem
    · exact Or.inl (List.mem_cons_of_mem _ hmem)
    · rcases List.mem_cons.mp hmem with hsame | hmem
      · cases hsame
        exact Or.inl List.mem_cons_self
      · exact Or.inr hmem

/-- A pattern of one component meets no slash. -/
theorem single_of_parse? {piece : String} {g : Glob} (hpiece : '/' ∉ piece.toList)
    (h : parse? piece = some g) : g.Single := by
  have hparse := eq_ok_of_toOption h
  rw [parse] at hparse
  cases hread : readTokens (piece.length + 1) 0 none piece.toList [] with
  | error e => simp [hread, Except.map] at hparse
  | ok ts =>
    rw [hread, Except.map, Except.ok.injEq] at hparse
    subst hparse
    intro hslash
    rcases mem_of_readTokens hread hslash with hmem | hmem
    · exact hpiece hmem
    · cases hmem

/-- The results of a computation that goes through a list. -/
theorem exists_mem_of_mapM {α β : Type} {f : α → Option β} {xs : List α} {ys : List β}
    (h : xs.mapM f = some ys) {y : β} (hy : y ∈ ys) : ∃ x ∈ xs, f x = some y := by
  induction xs generalizing ys with
  | nil =>
    cases h
    cases hy
  | cons x xs ih =>
    simp only [List.mapM_cons, Option.bind_eq_bind, Option.bind_eq_some_iff] at h
    obtain ⟨z, hz, zs, hzs, heq⟩ := h
    cases heq
    rcases List.mem_cons.mp hy with rfl | hy
    · exact ⟨x, List.mem_cons_self, hz⟩
    · obtain ⟨w, hw, heq⟩ := ih hzs hy
      exact ⟨w, List.mem_cons_of_mem _ hw, heq⟩

/-- A literal pattern of one component has no slash. -/
theorem Single.slash_not_mem {g : Glob} (hg : g.Single) {s : String} (h : g.plain? = some s) :
    '/' ∉ s.toList := by
  intro hslash
  obtain ⟨cs, hcs, rfl⟩ := Option.map_eq_some_iff.mp h
  rw [String.toList_ofList] at hslash
  obtain ⟨token, htoken, hchar⟩ := exists_mem_of_mapM hcs hslash
  split at hchar
  · cases hchar
    exact hg htoken
  · cases hchar

/-! ## Where a walk ends -/

section Walk

variable {t : FileTree}

/-- A join with nothing ends in a slash. -/
theorem getLast?_join_empty {path : String} (hpath : path ≠ "") :
    (Path.join path "").toList.getLast? = some '/' := by
  have hcond : (Path.isAbsolute "" || path == "") = false := by
    simp [Path.isAbsolute, hpath]
  rw [Path.join, hcond, if_neg (by simp)]
  split
  · rename_i hslash
    simpa using hslash
  · simp

/-- Nothing is found below a path that is no directory. -/
theorem not_pathExists_join {path s : String} (hne : path ≠ "")
    (hpath : t.isDirectory path = false) (hs : '/' ∉ s.toList) (hcurrent : s ≠ ".")
    (hparent : s ≠ "..") : t.pathExists (Path.join path s) = false := by
  rw [Bool.eq_false_iff] at hpath ⊢
  intro hexists
  refine hpath (FileTree.isDirectory_iff.mpr ?_)
  rw [FileTree.pathExists, Option.isSome_iff_exists] at hexists
  obtain ⟨e, he⟩ := hexists
  rw [FileTree.lookup?] at he
  by_cases hempty : s = ""
  · -- the same path with a slash at its end leads to directories only
    subst hempty
    have hsame : t.place? (Path.join path "") = t.place? path := by
      rw [FileTree.place?, FileTree.place?, Path.components_join hne rfl]
      simp [show Path.splitText '/' "" = [""] from rfl, Path.componentsOf, Path.componentOf?]
    rw [hsame, getLast?_join_empty hne] at he
    cases hplace : t.place? path with
    | none => simp [hplace] at he
    | some p =>
      refine ⟨p, rfl, ?_⟩
      rw [hplace, Option.bind_some] at he
      cases hentry : t.entry? p with
      | none => simp [hentry] at he
      | some f =>
        cases f with
        | directory => simp [FileTree.isDirectoryAt, hentry]
        | file c => simp [hentry] at he
  · -- a name is passed from a directory only
    have hname : Path.IsName s := ⟨hempty, hcurrent, hparent, hs⟩
    rw [FileTree.place?, Path.components_join_name hname,
      FileTree.follow?_append] at he
    cases hplace : t.follow? (Path.components path) [] with
    | none => simp [hplace] at he
    | some p =>
      refine ⟨p, hplace, ?_⟩
      by_contra hfree
      rw [hplace, Option.bind_some, FileTree.follow?_cons] at he
      simp [hfree] at he

/-- How a walk goes on behind a component: it ends here or follows the other components. -/
def onward (t : FileTree) (fuel : Nat) (gs : List Glob) (next : String) : List String :=
  if gs.isEmpty then (if t.isDirectory next then [next] else []) else fill t fuel gs next

/-- Without patterns there is nothing to fill. -/
theorem fill_nil (t : FileTree) (fuel : Nat) (path : String) : fill t fuel [] path = [] := by
  cases fuel <;> simp [fill]

/-- Without patterns there is nothing to visit. -/
theorem visit_nil (t : FileTree) (fuel : Nat) (parent name : String) :
    visit t fuel [] parent name = [] := by
  cases fuel <;> simp [visit]

/-- What a walk does at a directory. -/
theorem fill_cons (t : FileTree) (fuel : Nat) (g : Glob) (gs : List Glob) (path : String) :
    fill t (fuel + 1) (g :: gs) path =
      match g.plain? with
      | some s =>
        if (if s == "." || s == ".." then t.isDirectory path
            else t.pathExists (Path.join path s)) = true
        then onward t fuel gs (Path.join path s) else []
      | none =>
        match t.place? path with
        | none => []
        | some place =>
          if t.isDirectory path then
            (t.children place).flatMap (fun name => visit t fuel (g :: gs) path name) ++
              (if g.tokens.head? == some (.char '.') then
                ([".", ".."].filter g.isMatch).flatMap fun s => onward t fuel gs (Path.join path s)
              else [])
          else [] := by
  rw [fill]
  rfl

/-- How a walk goes on from a child that has to match the first of some components. -/
def descend (t : FileTree) (fuel : Nat) (gs : List Glob) (path name : String) : List String :=
  match gs with
  | [] => []
  | g :: rest => if g.isMatch name then onward t fuel rest path else []

/-- What a walk does at an entry of a directory. -/
theorem visit_cons (t : FileTree) (fuel : Nat) (g : Glob) (gs : List Glob)
    (parent name : String) :
    visit t (fuel + 1) (g :: gs) parent name =
      let path := Path.join parent name
      if g.isRecursive then
        let rest := gs.dropWhile isRecursive
        let below := if t.isDirectory path then fill t fuel (g :: rest) path else []
        if rest.isEmpty then (if t.isDirectory path then path :: below else [])
        else below ++ descend t fuel rest path name
      else descend t fuel (g :: gs) path name := by
  rw [visit]
  rfl

variable {gs : List Glob}

/-- A walk finds nothing below a path that is no directory. -/
theorem fill_eq_nil (hgs : ∀ g ∈ gs, g.Single) {path : String} (hne : path ≠ "")
    (hpath : t.isDirectory path = false) (fuel : Nat) : fill t fuel gs path = [] := by
  cases fuel with
  | zero => rw [fill]
  | succ fuel =>
    cases gs with
    | nil => rw [fill_nil]
    | cons g gs =>
      rw [fill_cons]
      cases hplain : g.plain? with
      | some s =>
        have hs := (hgs g List.mem_cons_self).slash_not_mem hplain
        -- the two dots are followed as they are; a name has to be there, and here it is not
        by_cases hdots : s = "." ∨ s = ".."
        · simp [hdots, hpath]
        · have hnone := not_pathExists_join hne hpath hs (fun h => hdots (Or.inl h))
            fun h => hdots (Or.inr h)
          simp [hdots, hnone]
      | none =>
        cases t.place? path with
        | none => rfl
        | some place => simp [hpath]

/-- A walk does not go on below what is no directory. -/
theorem onward_eq_nil (hgs : ∀ g ∈ gs, g.Single) {path : String} (hne : path ≠ "")
    (hpath : t.isDirectory path = false) (fuel : Nat) : onward t fuel gs path = [] := by
  rw [onward, hpath, fill_eq_nil hgs hne hpath]
  simp

/-- Nor does it go down there. -/
theorem descend_eq_nil (hgs : ∀ g ∈ gs, g.Single) {path : String} (hne : path ≠ "")
    (hpath : t.isDirectory path = false) (fuel : Nat) (name : String) :
    descend t fuel gs path name = [] := by
  cases gs with
  | nil => rfl
  | cons g gs =>
    rw [descend, onward_eq_nil (fun g' hg' => hgs g' (List.mem_cons_of_mem _ hg')) hne hpath]
    simp

/-- The patterns behind recursive ones are among all. -/
theorem mem_of_mem_dropWhile {g : Glob} (h : g ∈ gs.dropWhile isRecursive) : g ∈ gs :=
  (List.dropWhile_sublist _).subset h

/-- A walk finds nothing from a child that is no directory. -/
theorem visit_eq_nil (hgs : ∀ g ∈ gs, g.Single) {parent name : String}
    (hne : Path.join parent name ≠ "")
    (hpath : t.isDirectory (Path.join parent name) = false) (fuel : Nat) :
    visit t fuel gs parent name = [] := by
  cases fuel with
  | zero => rw [visit]
  | succ fuel =>
    cases gs with
    | nil => rw [visit_nil]
    | cons g gs =>
      rw [visit_cons]
      have hrest : ∀ g' ∈ gs.dropWhile isRecursive, g'.Single := fun g' hg' =>
        hgs g' (List.mem_cons_of_mem _ (mem_of_mem_dropWhile hg'))
      simp [hpath, descend_eq_nil hrest hne hpath, descend_eq_nil hgs hne hpath]

end Walk

/-! ## Absolute matches -/

section Absolute

variable {t : FileTree} {fuel : Nat}
  (hfill : ∀ gs path p, Path.isAbsolute path = true → p ∈ fill t fuel gs path →
    Path.isAbsolute p = true)

include hfill

/-- Below an absolute path a walk finds absolute paths. -/
theorem isAbsolute_of_mem_onward {gs : List Glob} {next p : String}
    (hnext : Path.isAbsolute next = true) (hp : p ∈ onward t fuel gs next) :
    Path.isAbsolute p = true := by
  rw [onward] at hp
  split at hp
  · split at hp
    · rw [List.mem_singleton.mp hp]
      exact hnext
    · cases hp
  · exact hfill gs next p hnext hp

/-- The same on its way down. -/
theorem isAbsolute_of_mem_descend {gs : List Glob} {path name p : String}
    (hpath : Path.isAbsolute path = true) (hp : p ∈ descend t fuel gs path name) :
    Path.isAbsolute p = true := by
  cases gs with
  | nil => cases hp
  | cons g gs =>
    rw [descend] at hp
    split at hp
    · exact isAbsolute_of_mem_onward hfill hpath hp
    · cases hp

/-- The same at an entry. -/
theorem isAbsolute_of_mem_visit {gs : List Glob} {parent name p : String}
    (hparent : Path.isAbsolute parent = true) (hp : p ∈ visit t (fuel + 1) gs parent name) :
    Path.isAbsolute p = true := by
  have hpath := Path.isAbsolute_join hparent name
  cases gs with
  | nil =>
    rw [visit_nil] at hp
    cases hp
  | cons g gs =>
    rw [visit_cons] at hp
    dsimp only at hp
    -- a directory or a file, with patterns left or without
    split at hp
    · split at hp
      · rw [List.mem_ite_nil_right, List.mem_cons, List.mem_ite_nil_right] at hp
        rcases hp.2 with rfl | hp
        · exact hpath
        · exact hfill _ _ p hpath hp.2
      · rw [List.mem_append, List.mem_ite_nil_right] at hp
        rcases hp with hp | hp
        · exact hfill _ _ p hpath hp.2
        · exact isAbsolute_of_mem_descend hfill hpath hp
    · exact isAbsolute_of_mem_descend hfill hpath hp

/-- The same at a directory, given it for its entries. -/
theorem isAbsolute_of_mem_fill
    (hvisit : ∀ gs parent name p, Path.isAbsolute parent = true →
      p ∈ visit t fuel gs parent name → Path.isAbsolute p = true)
    {gs : List Glob} {path p : String} (hpath : Path.isAbsolute path = true)
    (hp : p ∈ fill t (fuel + 1) gs path) : Path.isAbsolute p = true := by
  cases gs with
  | nil =>
    rw [fill_nil] at hp
    cases hp
  | cons g gs =>
    rw [fill_cons] at hp
    -- a plain component is joined to the path, any other one is matched with the entries below it
    cases hplain : g.plain? with
    | some s =>
      simp only [hplain] at hp
      rw [List.mem_ite_nil_right] at hp
      exact isAbsolute_of_mem_onward hfill (Path.isAbsolute_join hpath s) hp.2
    | none =>
      simp only [hplain] at hp
      cases hplace : t.place? path with
      | none => simp [hplace] at hp
      | some place =>
        simp only [hplace] at hp
        rw [List.mem_ite_nil_right, List.mem_append, List.mem_ite_nil_right] at hp
        rcases hp.2 with hp | hp
        · obtain ⟨name, -, hp⟩ := List.mem_flatMap.mp hp
          exact hvisit _ path name p hpath hp
        · obtain ⟨s, -, hp⟩ := List.mem_flatMap.mp hp.2
          exact isAbsolute_of_mem_onward hfill (Path.isAbsolute_join hpath s) hp

end Absolute

/-- A walk that starts at an absolute path finds absolute paths. -/
theorem isAbsolute_of_mem_walk (t : FileTree) (fuel : Nat) :
    (∀ gs path p, Path.isAbsolute path = true → p ∈ fill t fuel gs path →
        Path.isAbsolute p = true) ∧
      ∀ gs parent name p, Path.isAbsolute parent = true → p ∈ visit t fuel gs parent name →
        Path.isAbsolute p = true := by
  -- both parts of a walk call each other with less fuel
  induction fuel with
  | zero =>
    refine ⟨?_, ?_⟩
    · intro gs path p _ hp
      rw [fill] at hp
      cases hp
    · intro gs parent name p _ hp
      rw [visit] at hp
      cases hp
  | succ fuel ih =>
    obtain ⟨hfill, hvisit⟩ := ih
    exact ⟨fun _ _ _ hpath hp => isAbsolute_of_mem_fill hfill hvisit hpath hp,
      fun _ _ _ _ hparent hp => isAbsolute_of_mem_visit hfill hparent hp⟩

/-- The directories of a pattern are absolute paths. -/
theorem isAbsolute_of_mem_directories {t : FileTree} {pattern p : String}
    (hp : p ∈ directories t pattern) : Path.isAbsolute p = true := by
  rw [directories] at hp
  split at hp
  · exact (isAbsolute_of_mem_walk t _).1 _ "/" p rfl hp
  · cases hp

/-! ## Trees without a file -/

section Erased

variable {t : FileTree} {q : Place} {c : FileContent}

/-- Without a file a tree has as many directories. -/
theorem directoryCount_erase (ht : t.Proper) (hq : t.entry? q = some (.file c)) :
    (t.erase q).directoryCount = t.directoryCount := by
  rw [FileTree.directoryCount, FileTree.erase, List.countP_filter, FileTree.directoryCount]
  refine List.countP_congr fun e he => ?_
  by_cases heq : e.1 = q
  · have hfile : e.2 = .file c := by
      have hentry := ht.entry?_eq he
      rw [heq, hq] at hentry
      exact (Option.some.inj hentry).symm
    simp [heq, hfile]
  · simp [heq]

/-- The name under which an entry stands in a directory. -/
def childName? (place : Place) (e : Place × FileEntry) : Option String :=
  match e.1.getLast? with
  | some n => if e.1.dropLast == place then some n else none
  | none => none

/-- A child stands one name below. -/
theorem childName?_eq_some {place : Place} {e : Place × FileEntry} {n : String}
    (h : childName? place e = some n) : e.1 = place ++ [n] := by
  rw [childName?] at h
  cases hlast : e.1.getLast? with
  | none => simp [hlast] at h
  | some m =>
    simp only [hlast] at h
    split at h
    · rename_i hplace
      cases h
      -- the place of a child is that of its directory with one name more
      obtain ⟨front, hfront⟩ := List.getLast?_eq_some_iff.mp hlast
      rw [hfront, List.dropLast_concat, beq_iff_eq] at hplace
      rw [hfront, hplace]
    · cases h

/-- Without a file a directory has its other children. -/
theorem children_erase (t : FileTree) (q place : Place) :
    (t.erase q).children place = (t.children place).filter (place ++ [·] != q) := by
  refine FileTree.filterMap_erase (f := childName? place) ?_
  intro e _ n hname
  simp [childName?_eq_some hname]

/-- A walk over the children of a directory that finds nothing at the place of a file. -/
theorem flatMap_children_erase {place : Place} {f : String → List String}
    (hf : ∀ n, place ++ [n] = q → n ∈ t.children place → f n = []) :
    ((t.erase q).children place).flatMap f = (t.children place).flatMap f := by
  rw [children_erase]
  generalize t.children place = names at hf
  induction names with
  | nil => rfl
  | cons n names ih =>
    have ih := ih fun m hm hmem => hf m hm (List.mem_cons_of_mem _ hmem)
    by_cases hn : place ++ [n] = q
    · rw [List.filter_cons_of_neg (by simpa using hn), ih, List.flatMap_cons,
        hf n hn List.mem_cons_self, List.nil_append]
    · rw [List.filter_cons_of_pos (by simpa using hn), List.flatMap_cons, ih, List.flatMap_cons]

/-- The children of a proper tree have names. -/
theorem isName_of_mem_children (ht : t.Proper) {place : Place} {n : String}
    (hn : n ∈ t.children place) : Path.IsName n := by
  obtain ⟨e, he, hname⟩ := List.mem_filterMap.mp hn
  refine ht.named e he n ?_
  rw [childName?_eq_some hname]
  simp

/-- A path to what is no directory is no directory. -/
theorem isDirectory_of_place {path : String} (hq : t.isDirectoryAt q = false)
    (hpath : Path.place path = q) : t.isDirectory path = false := by
  rw [Bool.eq_false_iff]
  intro hdirectory
  obtain ⟨p, hp, hat⟩ := FileTree.isDirectory_iff.mp hdirectory
  rw [FileTree.place?_eq_place hp, hpath, hq] at hat
  cases hat

section Step

variable {fuel : Nat} (hq : t.entry? q = some (.file c))
  (hfill : ∀ gs path, (∀ g ∈ gs, Single g) → path ≠ "" →
    fill (t.erase q) fuel gs path = fill t fuel gs path)

include hq hfill

theorem onward_erase {gs : List Glob} {next : String} (hgs : ∀ g ∈ gs, Single g)
    (hne : next ≠ "") : onward (t.erase q) fuel gs next = onward t fuel gs next := by
  rw [onward, onward, (FileTree.agreesBeside_erase hq).isDirectory, hfill gs next hgs hne]

theorem descend_erase {gs : List Glob} {path : String} (name : String)
    (hgs : ∀ g ∈ gs, Single g) (hne : path ≠ "") :
    descend (t.erase q) fuel gs path name = descend t fuel gs path name := by
  cases gs with
  | nil => rfl
  | cons g gs =>
    have hrest : ∀ g' ∈ gs, Single g' := fun g' hg' => hgs g' (List.mem_cons_of_mem _ hg')
    rw [descend, descend, onward_erase hq hfill hrest hne]

theorem visit_erase {gs : List Glob} {parent name : String} (hgs : ∀ g ∈ gs, Single g)
    (hne : Path.join parent name ≠ "") :
    visit (t.erase q) (fuel + 1) gs parent name = visit t (fuel + 1) gs parent name := by
  cases gs with
  | nil => rw [visit_nil, visit_nil]
  | cons g gs =>
    have hrest : ∀ g' ∈ gs.dropWhile isRecursive, Single g' := fun g' hg' =>
      hgs g' (List.mem_cons_of_mem _ (mem_of_mem_dropWhile hg'))
    -- a recursive step is tried again below, so the patterns are single there too
    have hagain : ∀ g' ∈ g :: gs.dropWhile isRecursive, Single g' :=
      List.forall_mem_cons.mpr ⟨hgs g List.mem_cons_self, hrest⟩
    rw [visit_cons, visit_cons]
    dsimp only
    rw [(FileTree.agreesBeside_erase hq).isDirectory, hfill _ _ hagain hne,
      descend_erase hq hfill name hrest hne, descend_erase hq hfill name hgs hne]

/-- A component without wildcards leads to the same paths; the file itself leads nowhere. -/
theorem fill_erase_of_plain {g : Glob} {gs : List Glob} {path s : String}
    (hplain : g.plain? = some s) (hrest : ∀ g ∈ gs, Single g) (hne : path ≠ "") :
    fill (t.erase q) (fuel + 1) (g :: gs) path = fill t (fuel + 1) (g :: gs) path := by
  have hagrees := FileTree.agreesBeside_erase hq
  have hnext : Path.join path s ≠ "" := Path.join_ne_empty hne s
  rw [fill_cons, fill_cons, hplain]
  dsimp only
  rw [hagrees.isDirectory, onward_erase hq hfill hrest hnext]
  by_cases hplace : Path.place (Path.join path s) = q
  · rw [onward_eq_nil hrest hnext (isDirectory_of_place hagrees.no_directory_left hplace)]
    simp
  · rw [hagrees.pathExists hplace]

theorem fill_erase (ht : t.Proper)
    (hvisit : ∀ gs parent name, (∀ g ∈ gs, Single g) → Path.join parent name ≠ "" →
      visit (t.erase q) fuel gs parent name = visit t fuel gs parent name)
    {gs : List Glob} {path : String} (hgs : ∀ g ∈ gs, Single g) (hne : path ≠ "") :
    fill (t.erase q) (fuel + 1) gs path = fill t (fuel + 1) gs path := by
  have hagrees := FileTree.agreesBeside_erase hq
  cases gs with
  | nil => rw [fill_nil, fill_nil]
  | cons g gs =>
    have hrest : ∀ g' ∈ gs, Single g' := fun g' hg' => hgs g' (List.mem_cons_of_mem _ hg')
    cases hplain : g.plain? with
    | some s => exact fill_erase_of_plain hq hfill hplain hrest hne
    | none =>
      rw [fill_cons, fill_cons, hplain]
      dsimp only
      rw [hagrees.place?]
      cases hplace : t.place? path with
      | none => rfl
      | some place =>
        obtain rfl := FileTree.place?_eq_place hplace
        have hchild : (fun name => visit (t.erase q) fuel (g :: gs) path name) =
            fun name => visit t fuel (g :: gs) path name :=
          funext fun name => hvisit _ path name hgs (Path.join_ne_empty hne name)
        have hdots : (fun s => onward (t.erase q) fuel gs (Path.join path s)) =
            fun s => onward t fuel gs (Path.join path s) :=
          funext fun s => onward_erase hq hfill hrest (Path.join_ne_empty hne s)
        -- the file is a child of its directory, but no walk goes on from it
        have hfile : ∀ n, Path.place path ++ [n] = q → n ∈ t.children (Path.place path) →
            visit t fuel (g :: gs) path n = [] := by
          intro n hn hmem
          refine visit_eq_nil hgs (Path.join_ne_empty hne n)
            (isDirectory_of_place hagrees.no_directory_left ?_) fuel
          rw [Path.place_join_name (isName_of_mem_children ht hmem), hn]
        dsimp only
        rw [hagrees.isDirectory, hchild, hdots, flatMap_children_erase hfile]

end Step

/-- A walk after a pattern takes the same way in the tree without a file. -/
theorem walk_erase (ht : t.Proper) (hq : t.entry? q = some (.file c)) (fuel : Nat) :
    (∀ gs path, (∀ g ∈ gs, Single g) → path ≠ "" →
        fill (t.erase q) fuel gs path = fill t fuel gs path) ∧
      ∀ gs parent name, (∀ g ∈ gs, Single g) → Path.join parent name ≠ "" →
        visit (t.erase q) fuel gs parent name = visit t fuel gs parent name := by
  induction fuel with
  | zero =>
    refine ⟨?_, ?_⟩
    · intro gs path _ _
      rw [fill, fill]
    · intro gs parent name _ _
      rw [visit, visit]
  | succ fuel ih =>
    -- filling and visiting call each other, so both are carried by one induction
    obtain ⟨hfill, hvisit⟩ := ih
    exact ⟨fun _ _ hgs hne => fill_erase hq hfill ht hvisit hgs hne,
      fun _ _ _ hgs hne => visit_erase hq hfill hgs hne⟩

/-- The components of a pattern spell no slashes. -/
theorem single_of_mem_pieces {pattern : String} {gs : List Glob}
    (h : ((pieces pattern).drop 1).mapM parse? = some gs) {g : Glob} (hg : g ∈ gs) : g.Single := by
  obtain ⟨piece, hpiece, hparse⟩ := exists_mem_of_mapM h hg
  have hmem := (List.drop_sublist 1 _).subset hpiece
  have hsplit : piece ∈ Path.splitText '/' pattern := by
    rw [pieces] at hmem
    split at hmem
    · rename_i rest hrest
      rw [List.mem_reverse] at hmem
      exact List.mem_reverse.mp (hrest ▸ List.mem_cons_of_mem _ hmem)
    · rwa [List.reverse_reverse] at hmem
  exact single_of_parse? (Path.not_mem_of_mem_splitText hsplit) hparse

/-- A file has no part in the directories that a pattern matches. -/
theorem directories_erase (ht : t.Proper) (hq : t.entry? q = some (.file c)) (pattern : String) :
    directories (t.erase q) pattern = directories t pattern := by
  rw [directories, directories, directoryCount_erase ht hq]
  cases parse? pattern with
  | none => rfl
  | some _ =>
    cases hgs : ((pieces pattern).drop 1).mapM parse? with
    | none => rfl
    | some gs =>
      exact (walk_erase ht hq _).1 gs "/" (fun g hg => single_of_mem_pieces hgs hg) (by decide)

end Erased

end TextHarvest.Glob
