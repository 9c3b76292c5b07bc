import TextHarvest.Proofs.Files.Beside
import TextHarvest.Proofs.Locale.Record

/-!
# What locale files have to do with other files

Whatever is done to a locale file leaves the files at all other places alone: directories are made
where nothing stood, and one file is written. And what is done to it depends on nothing but its own
place and the way to its directory: on two trees that agree beside a place that is none of these,
it does the same.

Main results:

* `Locale.sameFiles_write` — writing a locale file changes the file at its place only.
* `sameFiles_foldl_fillOne`, `sameFiles_clean` — filling and cleaning change the files of the
  other languages only.
* `Locale.alike_write`, `alike_foldl_fillOne`, `alike_clean` — the same on trees that agree beside
  a place off the way.
-/

namespace TextHarvest

/-! ## Files that stay -/

namespace FileTree

/-- The same files stand at the places that pass a test. -/
def SameFiles (stays : Place → Prop) (t u : FileTree) : Prop :=
  ∀ p, stays p → ∀ c, u.entry? p = some (.file c) ↔ t.entry? p = some (.file c)

theorem SameFiles.refl (stays : Place → Prop) (t : FileTree) : SameFiles stays t t :=
  fun _ _ _ => Iff.rfl

theorem SameFiles.trans {stays : Place → Prop} {t u v : FileTree} (h : SameFiles stays t u)
    (h' : SameFiles stays u v) : SameFiles stays t v :=
  fun p hp c => (h' p hp c).trans (h p hp c)

theorem SameFiles.mono {stays stays' : Place → Prop} {t u : FileTree} (h : SameFiles stays t u)
    (himp : ∀ p, stays' p → stays p) : SameFiles stays' t u :=
  fun p hp c => h p (himp p hp) c

/-- Setting an entry keeps the files elsewhere. -/
theorem sameFiles_set {t : FileTree} {place : Place} (hplace : place ≠ []) (e : FileEntry) :
    SameFiles (· ≠ place) t (t.set place e) := by
  intro p hp c
  rw [entry?_set hplace, if_neg hp]

/-- A directory that is made where nothing stood changes no file. -/
theorem sameFiles_set_directory {t : FileTree} {place : Place} (hplace : place ≠ [])
    (hfree : t.entry? place = none) : SameFiles (fun _ => True) t (t.set place .directory) := by
  intro p _ c
  rw [entry?_set hplace]
  split
  · rename_i hp
    rw [hp, hfree]
    simp
  · rfl

/-- Making directories changes no file, also when one is in the way. -/
theorem sameFiles_makeDirs (cs : List Path.Component) (place : Place) (made : Bool)
    (t : FileTree) : SameFiles (fun _ => True) t (makeDirs cs place made t).1 := by
  induction cs generalizing place made t with
  | nil => exact .refl _ _
  | cons c cs ih =>
    cases c with
    | root => exact ih [] made t
    | current => exact ih place made t
    | parent => exact ih place.dropLast made t
    | name n =>
      rw [makeDirs]
      split
      · exact ih _ _ _
      · exact .refl _ _
      · -- a directory is made only where nothing was
        rename_i hentry
        exact (sameFiles_set_directory (by simp) hentry).trans (ih _ _ _)

/-- A write keeps the files elsewhere. -/
theorem sameFiles_write? {t u : FileTree} {path : String} {content : FileContent}
    (h : t.write? path content = some u) : SameFiles (· ≠ Path.place path) t u := by
  obtain ⟨-, hne, -, rfl⟩ := write?_eq_some h
  exact sameFiles_set hne _

end FileTree

open FileTree

namespace Locale

/-- Writing a locale file changes the file at its place only. -/
theorem sameFiles_write (t : FileTree) (path : String) (c : Catalog) :
    SameFiles (· ≠ Path.place path) t (write t path c).1 := by
  have hdirs : SameFiles (· ≠ Path.place path) t
      (makeDirs (Path.components ((Path.parent? path).getD "")) [] false t).1 :=
    (sameFiles_makeDirs _ _ _ _).mono fun _ _ => trivial
  rw [write_eq, createDirs]
  generalize makeDirs _ _ _ _ = result at hdirs ⊢
  obtain ⟨made, _ | fault⟩ := result
  · dsimp only
    split
    · exact hdirs
    · rename_i hwrite
      exact hdirs.trans (sameFiles_write? hwrite)
  · exact hdirs

/-- Writing the record leaves other files alone. -/
theorem sameFiles_writeSource (t : FileTree) (path : String) (found : Catalog) (additive : Bool) :
    SameFiles (· ≠ Path.place path) t (writeSource t path found additive).1 := by
  simp only [writeSource]
  split
  · have hwrite := sameFiles_write t path (updated (readOrEmpty t path) found additive)
    generalize write t path (updated (readOrEmpty t path) found additive) = result at hwrite
    obtain ⟨u, _ | e⟩ := result <;> exact hwrite
  · exact .refl _ _

end Locale

section Languages

variable {o : Options} {root : String}

/-- A place that is not that of a locale file of some languages. -/
def OffLocales (o : Options) (root : String) (langs : List String) (p : Place) : Prop :=
  ∀ lang ∈ langs, p ≠ Path.place (o.localePath root lang)

/-- Filling a language leaves other files alone. -/
theorem sameFiles_fillOne (orchestra : Orchestra) (source : Catalog) (s : Orchestra.State)
    (lang : String) :
    SameFiles (· ≠ Path.place (o.localePath root lang)) s.tree
      (orchestra.fillOne o root source s lang).tree := by
  rcases fillOne_tree orchestra source s lang with hsame | ⟨values, hwritten⟩
  · rw [hsame]
    exact .refl _ _
  · rw [hwritten]
    exact Locale.sameFiles_write _ _ _

/-- Filling some languages leaves other files alone. -/
theorem sameFiles_foldl_fillOne (orchestra : Orchestra) (source : Catalog) (langs : List String)
    (s : Orchestra.State) :
    SameFiles (OffLocales o root langs) s.tree
      (langs.foldl (orchestra.fillOne o root source) s).tree := by
  induction langs generalizing s with
  | nil => exact .refl _ _
  | cons lang langs ih =>
    have hone : SameFiles (OffLocales o root (lang :: langs)) s.tree
        (orchestra.fillOne o root source s lang).tree :=
      (sameFiles_fillOne orchestra source s lang).mono fun _ hp => hp lang List.mem_cons_self
    rw [List.foldl_cons]
    exact hone.trans ((ih _).mono fun p hp l hl => hp l (List.mem_cons_of_mem _ hl))

/-- Cleaning a language leaves other files alone. -/
theorem sameFiles_cleanOne (source : Catalog) (state : FileTree × Locale.CleanReport)
    (lang : String) :
    SameFiles (· ≠ Path.place (o.localePath root lang)) state.1
      (Locale.cleanOne o root source state lang).1 := by
  rcases cleanOne_tree source state lang with hsame | ⟨-, hwritten⟩
  · rw [hsame]
    exact .refl _ _
  · rw [hwritten]
    exact Locale.sameFiles_write _ _ _

/-- Cleaning some languages leaves other files alone. -/
theorem sameFiles_foldl_cleanOne (source : Catalog) (langs : List String)
    (state : FileTree × Locale.CleanReport) :
    SameFiles (OffLocales o root langs) state.1
      (langs.foldl (Locale.cleanOne o root source) state).1 := by
  induction langs generalizing state with
  | nil => exact .refl _ _
  | cons lang langs ih =>
    have hone : SameFiles (OffLocales o root (lang :: langs)) state.1
        (Locale.cleanOne o root source state lang).1 :=
      (sameFiles_cleanOne source state lang).mono fun _ hp => hp lang List.mem_cons_self
    rw [List.foldl_cons]
    exact hone.trans ((ih _).mono fun p hp l hl => hp l (List.mem_cons_of_mem _ hl))

/-- The record of the sources by which the other files are cleaned. -/
def recordOf (t : FileTree) (path : String) : Except Locale.ReadError Catalog :=
  if t.pathExists path then Locale.read t path else .error (.noSource path)

/-- A cleaning, given what the record is. -/
theorem cleanOn_eq (disk : Disk) (remark : String → String) (t : FileTree) :
    Locale.cleanOn disk remark t root o =
    match recordOf t (o.localePath root o.fromLang) with
    | .error e => (t, { issues :=
        [.persistence (o.localePath root o.fromLang) (some o.fromLang) (e.report remark)] })
    | .ok source => o.targetLangs.foldl (Locale.cleanOneOn disk o root source) (t, {}) := by
  rw [recordOf]
  delta Locale.cleanOn
  cases hexists : t.pathExists (o.localePath root o.fromLang) with
  | false => simp only [hexists, Bool.false_eq_true, if_false]
  | true =>
    cases hread : Locale.read t (o.localePath root o.fromLang) with
    | error e => simp only [hexists, hread, if_true]
    | ok source => simp only [hexists, hread, if_true]

/-- The same on a disk that does what it is told. -/
theorem clean_eq (remark : String → String) (t : FileTree) : Locale.clean remark t root o =
    match recordOf t (o.localePath root o.fromLang) with
    | .error e => (t, { issues :=
        [.persistence (o.localePath root o.fromLang) (some o.fromLang) (e.report remark)] })
    | .ok source => o.targetLangs.foldl (Locale.cleanOne o root source) (t, {}) := by
  delta Locale.clean
  rw [cleanOn_eq]
  cases recordOf t (o.localePath root o.fromLang) with
  | error e => rfl
  | ok source => rfl

/-- A cleaning leaves other files alone. -/
theorem sameFiles_clean (remark : String → String) (t : FileTree) :
    SameFiles (OffLocales o root o.targetLangs) t (Locale.clean remark t root o).1 := by
  rw [clean_eq]
  cases recordOf t (o.localePath root o.fromLang) with
  | error e => exact .refl _ _
  | ok source => exact sameFiles_foldl_cleanOne _ _ _

end Languages

/-! ## Trees that agree beside a place -/

namespace Locale

/-- A place that is neither that of a locale file nor on the way to its directory. -/
def OffWay (path : String) (q : Place) : Prop :=
  Path.place path ≠ q ∧ q ∉ Path.way ((Path.parent? path).getD "")

instance (path : String) (q : Place) : Decidable (OffWay path q) :=
  inferInstanceAs (Decidable (_ ∧ _))

section Record

variable {q : Place} {t u : FileTree} {path : String}

/-- Beside a place the same is read. -/
theorem readOrEmpty_eq (h : AgreesBeside q t u) (hplace : Path.place path ≠ q) :
    readOrEmpty u path = readOrEmpty t path := by
  rw [readOrEmpty, readOrEmpty, read, read, h.readText? hplace]
  cases t.readText? path with
  | none => rfl
  | some s => rfl

/-- Where something stands at the end of a path, it reads the same in both trees, and when it cannot
be read, the reason is the same. -/
theorem read_eq (h : AgreesBeside q t u) (hplace : Path.place path ≠ q)
    (hexists : t.pathExists path = true) : read u path = read t path := by
  have hfault : u.readFault path = t.readFault path := by
    rw [FileTree.readFault, FileTree.readFault, h.place?]
    cases hfollow : t.place? path with
    | none => simp [FileTree.pathExists, FileTree.lookup?, hfollow] at hexists
    | some p =>
      obtain rfl := place?_eq_place hfollow
      simp only [h.elsewhere _ hplace]
  rw [read, read, h.readText? hplace, hfault]

/-- Beside a place the same is written. -/
theorem alike_write (h : AgreesBeside q t u) (hoff : OffWay path q) (c : Catalog) :
    Alike q (write t path c) (write u path c) := by
  rw [write_eq, write_eq]
  -- both trees get the same directories, then the same file or the same fault
  have hdirs := h.createDirs hoff.2
  generalize t.createDirs ((Path.parent? path).getD "") = made,
    u.createDirs ((Path.parent? path).getD "") = made' at hdirs
  cases hdirs with
  | @mk t' u' h' result =>
    cases result with
    | some fault => exact .mk h' _
    | none =>
      dsimp only
      rw [h'.writeFault hoff.2]
      have hwrite := h'.write? hoff.1 (.text (encode c))
      generalize t'.write? path (.text (encode c)) = written,
        u'.write? path (.text (encode c)) = written' at hwrite
      cases hwrite with
      | none => exact .mk h' _
      | some h'' => exact .mk h'' _

/-- The record is written alike. -/
theorem alike_writeSource (h : AgreesBeside q t u) (hoff : OffWay path q) (found : Catalog)
    (additive : Bool) :
    Alike q (writeSource t path found additive) (writeSource u path found additive) := by
  simp only [writeSource, readOrEmpty_eq h hoff.1, h.pathExists hoff.1]
  split
  · have hwrite := alike_write h hoff (updated (readOrEmpty t path) found additive)
    generalize write t path (updated (readOrEmpty t path) found additive) = x,
      write u path (updated (readOrEmpty t path) found additive) = y at hwrite
    cases hwrite with
    | mk htrees failure => cases failure <;> exact .mk htrees _
  · exact .mk h _

end Record

end Locale

section Languages

variable {o : Options} {root : String} {q : Place}

/-- States of a filling that differ beside a place in nothing. -/
structure AlikeStates (q : Place) (s s' : Orchestra.State) : Prop where
  trees : AgreesBeside q s.tree s'.tree
  dispatch : s'.dispatch = s.dispatch
  report : s'.report = s.report
  busy : s'.busy = s.busy

/-- A language is filled alike. -/
theorem alike_fillOne {s s' : Orchestra.State} (h : AlikeStates q s s') (orchestra : Orchestra)
    (source : Catalog) {lang : String} (hoff : Locale.OffWay (o.localePath root lang) q) :
    AlikeStates q (orchestra.fillOne o root source s lang)
      (orchestra.fillOne o root source s' lang) := by
  obtain ⟨htrees, hdispatch, hreport, hbusy⟩ := h
  simp only [Orchestra.fillOne, hdispatch, hreport, hbusy, Locale.readOrEmpty_eq htrees hoff.1]
  split
  · exact ⟨htrees, rfl, rfl, rfl⟩
  · generalize orchestra.translate _ _ _ _ = answer
    obtain ⟨d, values, issues⟩ := answer
    dsimp only
    generalize Catalog.insertAll _ _ = target
    -- what was translated is the same in both, so the same file is written
    have hwrite := Locale.alike_write htrees hoff target
    generalize Locale.write s.tree (o.localePath root lang) target = x,
      Locale.write s'.tree (o.localePath root lang) target = y at hwrite
    cases hwrite with
    | mk htrees failure => cases failure <;> exact ⟨htrees, rfl, rfl, rfl⟩

/-- Some languages are filled alike. -/
theorem alike_foldl_fillOne {s s' : Orchestra.State} (h : AlikeStates q s s')
    (orchestra : Orchestra) (source : Catalog) {langs : List String}
    (hoff : ∀ lang ∈ langs, Locale.OffWay (o.localePath root lang) q) :
    AlikeStates q (langs.foldl (orchestra.fillOne o root source) s)
      (langs.foldl (orchestra.fillOne o root source) s') := by
  induction langs generalizing s s' with
  | nil => exact h
  | cons lang langs ih =>
    rw [List.foldl_cons, List.foldl_cons]
    exact ih (alike_fillOne h orchestra source (hoff lang List.mem_cons_self))
      fun l hl => hoff l (List.mem_cons_of_mem _ hl)

/-- A language is cleaned alike. -/
theorem alike_cleanOne {x y : FileTree × Locale.CleanReport} (h : Alike q x y) (source : Catalog)
    {lang : String} (hoff : Locale.OffWay (o.localePath root lang) q) :
    Alike q (Locale.cleanOne o root source x lang) (Locale.cleanOne o root source y lang) := by
  obtain @⟨t, u, htrees, report⟩ := h
  simp only [Locale.cleanOne, Locale.cleanOneOn, htrees.pathExists hoff.1,
    Locale.readOrEmpty_eq htrees hoff.1]
  split
  · split
    · exact .mk htrees _
    · generalize Locale.prune source _ = kept
      -- the same keys are kept in both
      have hwrite := Locale.alike_write htrees hoff kept
      simp only [Locale.write] at hwrite
      generalize Locale.writeOn .willing t (o.localePath root lang) kept = x,
        Locale.writeOn .willing u (o.localePath root lang) kept = y at hwrite
      cases hwrite with
      | mk htrees failure => cases failure <;> exact .mk htrees _
  · exact .mk htrees _

/-- Some languages are cleaned alike. -/
theorem alike_foldl_cleanOne {x y : FileTree × Locale.CleanReport} (h : Alike q x y)
    (source : Catalog) {langs : List String}
    (hoff : ∀ lang ∈ langs, Locale.OffWay (o.localePath root lang) q) :
    Alike q (langs.foldl (Locale.cleanOne o root source) x)
      (langs.foldl (Locale.cleanOne o root source) y) := by
  induction langs generalizing x y with
  | nil => exact h
  | cons lang langs ih =>
    rw [List.foldl_cons, List.foldl_cons]
    exact ih (alike_cleanOne h source (hoff lang List.mem_cons_self))
      fun l hl => hoff l (List.mem_cons_of_mem _ hl)

/-- A cleaning comes to the same. -/
theorem alike_clean {t u : FileTree} (h : AgreesBeside q t u)
    (hoff : ∀ lang ∈ o.fromLang :: o.targetLangs, Locale.OffWay (o.localePath root lang) q)
    (remark : String → String) :
    Alike q (Locale.clean remark t root o) (Locale.clean remark u root o) := by
  have hsource := (hoff o.fromLang List.mem_cons_self).1
  -- the record is read from a place where both trees agree
  have hrecord : recordOf u (o.localePath root o.fromLang) =
      recordOf t (o.localePath root o.fromLang) := by
    rw [recordOf, recordOf, h.pathExists hsource]
    split
    · rename_i hexists
      exact Locale.read_eq h hsource hexists
    · rfl
  rw [clean_eq, clean_eq, hrecord]
  cases recordOf t (o.localePath root o.fromLang) with
  | error e => exact .mk h _
  | ok source =>
    exact alike_foldl_cleanOne (.mk h {}) source
      fun lang hlang => hoff lang (List.mem_cons_of_mem _ hlang)

end Languages

end TextHarvest
