import TextHarvest.Proofs.Except
import TextHarvest.Proofs.Harvest.Lossless
import TextHarvest.Proofs.Script.Import

/-!
# What is imported for the calls

The calls that are put into a script need the first segments of the names of their functions. The
plan for the imports refuses a name that is bound to something else, leaves alone the names that the
path is imported for, and adds all others, each once. It asks whether a name is imported from the
path, not whether it is imported as a value: a name that is imported for its type alone is taken for
bound, and the calls fail.

Main results:

* `importNames_spec` — the names that calls need.
* `AddsNames` — the edits that add names to an import or write a new one.
* `importsNames_importStatement` — a new import is a script that binds its names as values.
* `bindsCalls_planImport` — what a plan does about each name.
* `not_bindsCalls_typed` — a name that is imported for its type is not added as a value.
-/

namespace TextHarvest

/-- Whether a test succeeds and says yes. -/
def passes {ε : Type} (r : Except ε Bool) : Bool :=
  r.toOption == some true

/-- A filter with failures stops at the first failure or keeps what passes. -/
theorem filterAuxM_cases {ε α : Type} (f : α → Except ε Bool) (as acc : List α) :
    (∃ a ∈ as, ∃ c, f a = .error c ∧ as.filterAuxM f acc = .error c) ∨
      (∀ a ∈ as, ∃ b, f a = .ok b) ∧
        as.filterAuxM f acc = .ok ((as.filter fun a => passes (f a)).reverse ++ acc) := by
  -- by induction on the list; what was kept so far does not matter
  induction as generalizing acc with
  | nil => exact Or.inr ⟨by simp, rfl⟩
  | cons a as ih =>
    cases hfa : f a with
    | error c =>
      refine Or.inl ⟨a, List.mem_cons_self, c, hfa, ?_⟩
      rw [List.filterAuxM, hfa]
      rfl
    | ok b =>
      have hstep : (a :: as).filterAuxM f acc = as.filterAuxM f (if b then a :: acc else acc) := by
        rw [List.filterAuxM, hfa]
        cases b <;> rfl
      rcases ih (if b then a :: acc else acc) with ⟨d, hd, c, hfd, herror⟩ | ⟨hall, hok⟩
      · exact Or.inl ⟨d, List.mem_cons_of_mem a hd, c, hfd, hstep.trans herror⟩
      · refine Or.inr ⟨?_, ?_⟩
        · intro d hd
          rcases List.mem_cons.mp hd with rfl | hd
          · exact ⟨b, hfa⟩
          · exact hall d hd
        · rw [hstep, hok, List.filter_cons, hfa]
          cases b <;> simp [passes, Except.toOption]

/-- A filter whose test can fail: the failure of a member, or the members that pass. -/
theorem filterM_cases {ε α : Type} (f : α → Except ε Bool) (as : List α) :
    (∃ a ∈ as, ∃ c, f a = .error c ∧ as.filterM f = .error c) ∨
      (∀ a ∈ as, ∃ b, f a = .ok b) ∧
        as.filterM f = .ok (as.filter fun a => passes (f a)) := by
  rcases filterAuxM_cases f as [] with ⟨a, ha, c, hfa, herror⟩ | ⟨hall, hok⟩
  · refine Or.inl ⟨a, ha, c, hfa, ?_⟩
    rw [List.filterM, herror]
    rfl
  · refine Or.inr ⟨hall, ?_⟩
    rw [List.filterM, hok, List.append_nil]
    show Except.ok _ = _
    rw [List.reverse_reverse]

namespace Harvest

open Script

/-! ## The names that are to be bound -/

/-- A name that calls of some dotted names need: the first segment of one of them, but for the
receivers that are always there. -/
def IsHead (names : List String) (n : String) : Prop :=
  n ≠ "" ∧ n ≠ "this" ∧ n ≠ "_ctx" ∧ ∃ name ∈ names, headSegment name = n

/-- The step by which the heads are gathered. -/
def addHead (heads : List String) (n : String) : List String :=
  if n == "" || unimportable.contains n || heads.contains n then heads else heads ++ [n]

/-- What is added to the names is the new name, if it can be imported at all. -/
theorem mem_addHead {heads : List String} {n m : String} :
    m ∈ addHead heads n ↔ m ∈ heads ∨ m = n ∧ n ≠ "" ∧ n ≠ "this" ∧ n ≠ "_ctx" := by
  unfold addHead
  by_cases hskip : n == "" || unimportable.contains n || heads.contains n
  · rw [if_pos hskip]
    simp [unimportable] at hskip
    grind
  · rw [if_neg hskip]
    simp [unimportable] at hskip
    grind

/-- No name is added twice. -/
theorem nodup_addHead {heads : List String} (hheads : heads.Nodup) (n : String) :
    (addHead heads n).Nodup := by
  unfold addHead
  split
  · exact hheads
  · next hskip =>
    -- a name is added only when it is not there yet
    have hnew : n ∉ heads := by
      simp at hskip
      exact hskip.2
    rw [List.nodup_append]
    refine ⟨hheads, by simp, ?_⟩
    intro a ha b hb hab
    rw [List.mem_singleton.mp hb] at hab
    exact hnew (hab ▸ ha)

/-- The names to import are the first segments that can be imported, each once. -/
theorem importNames_spec (names : List String) :
    (importNames names).Nodup ∧ ∀ n, n ∈ importNames names ↔ IsHead names n := by
  -- the same for any names that were found before
  have hfold : ∀ (segments heads : List String), heads.Nodup →
      (segments.foldl addHead heads).Nodup ∧ ∀ n, n ∈ segments.foldl addHead heads ↔
        n ∈ heads ∨ n ∈ segments ∧ n ≠ "" ∧ n ≠ "this" ∧ n ≠ "_ctx" := by
    intro segments
    induction segments with
    | nil => intro heads hheads; simp [hheads]
    | cons m segments ih =>
      intro heads hheads
      obtain ⟨hnodup, hmem⟩ := ih (addHead heads m) (nodup_addHead hheads m)
      refine ⟨hnodup, ?_⟩
      intro n
      rw [List.foldl_cons, hmem, mem_addHead, List.mem_cons]
      grind
  obtain ⟨hnodup, hmem⟩ := hfold (names.map headSegment) [] List.nodup_nil
  refine ⟨hnodup, ?_⟩
  intro n
  have hn := hmem n
  show n ∈ (names.map headSegment).foldl addHead [] ↔ _
  rw [hn, IsHead]
  simp
  grind

/-! ## Bindings -/

/-- Some import binds a name. -/
def Imports (imports : List ImportSite) (name : String) : Prop :=
  ∃ i ∈ imports, ∃ s ∈ i.clause.specifiers, s.name = name

/-- A name is bound at run time by an import from a path: neither the import nor the specifier is on
the level of types. -/
def BindsValue (imports : List ImportSite) (path name : String) : Prop :=
  ∃ i ∈ imports, i.clause.source = some path ∧ i.clause.typeOnly = false ∧
    ∃ s ∈ i.clause.specifiers, s.name = name ∧ s.typeOnly = false

/-- A name is imported from a path, but not as a value: only on the level of types, or, when the
path is empty, from a path that is no text. -/
def OnlyTyped (imports : List ImportSite) (path name : String) : Prop :=
  ¬BindsValue imports path name ∧ ∃ i ∈ imports, i.clause.source.getD "" = path ∧
    ∃ s ∈ i.clause.specifiers, s.name = name ∧
      (i.clause.typeOnly = true ∨ s.typeOnly = true ∨ i.clause.source = none)

/-- A name is bound to something else: by an import from another path, or by a declaration. -/
def BoundElsewhere (script : Tree) (path : String) (c : Conflict) : Prop :=
  (∃ i ∈ importsOf script, i.clause.source ≠ some path ∧
      (∃ s ∈ i.clause.specifiers, s.name = c.name) ∧
      c.binding = "imported from \x22" ++ i.clause.source.getD "" ++ "\x22") ∨
    ∃ d, (c.name, d) ∈ declared script ∧ c.binding = d.name ++ " declaration"

/-- A name that needs an import has none. -/
theorem needsImport_ok_true {imports : List ImportSite} {declarations : List (String × Declaration)}
    {path name : String} (h : needsImport imports declarations path name = .ok true) :
    ¬Imports imports name := by
  unfold needsImport at h
  split at h
  · dsimp only at h
    split at h <;> simp at h
  · next hnone =>
    rintro ⟨i, hi, s, hs, hname⟩
    have hnot := List.find?_eq_none.mp hnone i hi
    simp only [List.any_eq_true, beq_iff_eq, not_exists, not_and] at hnot
    exact hnot s hs hname

/-- A name that needs none is imported from the path, as a value or as a type. -/
theorem needsImport_ok_false {imports : List ImportSite}
    {declarations : List (String × Declaration)} {path name : String}
    (h : needsImport imports declarations path name = .ok false) :
    BindsValue imports path name ∨ OnlyTyped imports path name := by
  unfold needsImport at h
  split at h
  · next i hi =>
    have hany := List.find?_some hi
    obtain ⟨s, hs, hname⟩ := List.any_eq_true.mp hany
    have hmem := List.mem_of_find?_eq_some hi
    have hname : s.name = name := beq_iff_eq.mp hname
    have hpath : i.clause.source.getD "" = path := by
      by_contra hne
      simp [hne] at h
    -- an import of the name that is no value is one of a type
    by_cases hbinds : BindsValue imports path name
    · exact Or.inl hbinds
    · refine Or.inr ⟨hbinds, i, hmem, hpath, s, hs, hname, ?_⟩
      by_contra hvalue
      simp only [not_or, Bool.not_eq_true] at hvalue
      obtain ⟨hdecl, hspec, htext⟩ := hvalue
      obtain ⟨source, hsource⟩ := Option.ne_none_iff_exists'.mp htext
      rw [hsource, Option.getD_some] at hpath
      exact hbinds ⟨i, hmem, hsource.trans (congrArg some hpath), hdecl, s, hs, hname, hspec⟩
  · split at h <;> simp at h

/-- A conflict is a name that is bound to something else. -/
theorem needsImport_error {script : Tree} {path name : String} {c : Conflict}
    (h : needsImport (importsOf script) (declared script) path name = .error c) :
    c.name = name ∧ BoundElsewhere script path c := by
  unfold needsImport at h
  split at h
  · next i hi =>
    -- the name is imported already; it is a conflict only when it comes from somewhere else
    have hany := List.find?_some hi
    obtain ⟨s, hs, hname⟩ := List.any_eq_true.mp hany
    dsimp only at h
    split at h
    · simp at h
    · next hsource =>
      obtain rfl := Except.error.inj h
      refine ⟨rfl, Or.inl ⟨i, List.mem_of_find?_eq_some hi, ?_, ⟨s, hs, beq_iff_eq.mp hname⟩, rfl⟩⟩
      intro heq
      rw [heq] at hsource
      exact hsource (beq_self_eq_true path)
  · split at h
    · next d hd =>
      obtain rfl := Except.error.inj h
      obtain ⟨before, after, hdeclared, -⟩ := List.lookup_eq_some_iff.mp hd
      -- or the script declares the name itself
      have hmem : (name, d) ∈ declared script := by
        rw [hdeclared]
        exact List.mem_append_right _ List.mem_cons_self
      exact ⟨rfl, Or.inr ⟨d, hmem, rfl⟩⟩
    · simp at h

/-! ## The edit -/

/-- The names of some specifiers, as they are listed between braces. -/
def listed (names : List String) : String :=
  ", ".intercalate names

/-- The statement that imports some names from a path. -/
def importStatement (names : List String) (path : String) : String :=
  "import \x7b " ++ listed names ++ " \x7d from \x22" ++ path ++ "\x22;"

/-- A script that is one import, which binds some names as values from a path. -/
def ImportsNames (script : Tree) (path : String) (names : List String) : Prop :=
  ∃ i, importsOf script = [i] ∧ i.clause.source = some path ∧ i.clause.typeOnly = false ∧
    BindNames i.clause.specifiers names

/-- The list of the names, character by character. -/
theorem toList_listed (n : String) (names : List String) :
    (listed (n :: names)).toList = n.toList ++ furtherNames names := by
  induction names generalizing n with
  | nil => simp [listed, furtherNames]
  | cons m names ih =>
    have hcons : listed (n :: m :: names) = n ++ ", " ++ listed (m :: names) := by
      simp [listed]
    rw [hcons, String.toList_append, String.toList_append, ih]
    simp [furtherNames]

/-- A new import of words from a path that needs no escapes is a script that binds them. -/
theorem importsNames_importStatement {names : List String} {path : String} (hsome : names ≠ [])
    (hwords : ∀ n ∈ names, IsWord n.toList)
    (hpath : Text.quoted path .double = "\x22" ++ path ++ "\x22") (dialect : Dialect) :
    ∃ script, parseModule (importStatement names path) dialect = .ok script ∧
      ImportsNames script path names := by
  obtain ⟨n, names, rfl⟩ := List.exists_cons_of_ne_nil hsome
  have hcode : (importStatement (n :: names) path).toList = importChars n names path ++ [';'] := by
    unfold importStatement importChars
    simp [hpath, toList_listed]
  obtain ⟨specifiers, span, whole, hparse, hbind⟩ := parseModule_import hwords path dialect hcode
  exact ⟨_, hparse, ⟨⟨some path, false, specifiers⟩, span⟩, rfl, rfl, rfl, hbind⟩

/-- An edit that adds some names to an import, or writes a new import of them. -/
inductive AddsNames (imports : List ImportSite) (path : String) (names : List String) :
    Edit → Prop
  /-- Behind the last of the names that a value import of the path has between its braces. -/
  | behindNamed {i : ImportSite} {s : Specifier} {before : List Specifier} :
      i ∈ imports → i.clause.source = some path → i.clause.typeOnly = false →
      i.clause.specifiers.filter (·.form == .named) = before ++ [s] →
      AddsNames imports path names ⟨Span.point s.span.stop, ", " ++ listed names⟩
  /-- In braces of their own, behind the only binding of a value import of the path. -/
  | behindDefault {i : ImportSite} {s : Specifier} :
      i ∈ imports → i.clause.source = some path → i.clause.typeOnly = false →
      s ∈ i.clause.specifiers → (∀ s' ∈ i.clause.specifiers, s'.form = .byDefault) →
      (∀ s' ∈ i.clause.specifiers, s'.span.stop ≤ s.span.stop) →
      AddsNames imports path names ⟨Span.point s.span.stop, ", \x7b " ++ listed names ++ " \x7d"⟩
  /-- As a statement on a line of its own, which is an import of the names for itself. -/
  | statement {at_ : Nat} {before after : String} :
      before ++ after = "\n" →
      ((∀ n ∈ names, IsWord n.toList) → Text.quoted path .double = "\x22" ++ path ++ "\x22" →
        ∀ dialect, ∃ script, parseModule (importStatement names path) dialect = .ok script ∧
          ImportsNames script path names) →
      AddsNames imports path names
        ⟨Span.point at_, before ++ importStatement names path ++ after⟩

/-- The greatest number is no less than any of them. -/
theorem le_foldl_max (m : Nat) (ns : List Nat) {n : Nat} (hn : n ∈ m :: ns) :
    n ≤ ns.foldl max m := by
  induction ns generalizing m n with
  | nil => exact Nat.le_of_eq (List.mem_singleton.mp hn)
  | cons k ns ih =>
    rw [List.foldl_cons]
    have hmax : max m k ≤ ns.foldl max (max m k) := ih (max m k) List.mem_cons_self
    rcases List.mem_cons.mp hn with rfl | hn
    · exact Nat.le_trans (Nat.le_max_left n k) hmax
    · rcases List.mem_cons.mp hn with rfl | hn
      · exact Nat.le_trans (Nat.le_max_right m n) hmax
      · exact ih (max m k) (List.mem_cons_of_mem _ hn)

/-- Among some bindings there is one that ends where the last of them ends. -/
theorem exists_last_stop {specifiers : List Specifier} (hsome : specifiers ≠ []) :
    ∃ s ∈ specifiers, s.span.stop = (specifiers.map (·.span.stop)).foldl max 0 ∧
      ∀ s' ∈ specifiers, s'.span.stop ≤ s.span.stop := by
  -- the greatest end is that of one of the specifiers, even when all ends are zero
  have hle : ∀ s' ∈ specifiers, s'.span.stop ≤ (specifiers.map (·.span.stop)).foldl max 0 := by
    intro s' hs'
    exact le_foldl_max 0 _ (List.mem_cons_of_mem 0 (List.mem_map.mpr ⟨s', hs', rfl⟩))
  rcases List.mem_cons.mp (foldl_max_mem 0 (specifiers.map (·.span.stop))) with hzero | hmem
  · obtain ⟨s, hs⟩ := List.exists_mem_of_ne_nil specifiers hsome
    have hstop := hle s hs
    refine ⟨s, hs, by omega, ?_⟩
    intro s' hs'
    have hstop' := hle s' hs'
    omega
  · obtain ⟨s, hs, hstop⟩ := List.mem_map.mp hmem
    exact ⟨s, hs, hstop, fun s' hs' => hstop ▸ hle s' hs'⟩

/-- Extending an import adds the names to it. -/
theorem addsNames_extendImport {imports : List ImportSite} {path : String} {names : List String}
    {i : ImportSite} (hi : i ∈ imports) (hextensible : isExtensible path i = true) :
    AddsNames imports path names (extendImport i (listed names)) := by
  unfold isExtensible at hextensible
  simp only [Bool.and_eq_true, beq_iff_eq, Bool.not_eq_true', List.isEmpty_eq_false_iff,
    List.any_eq_false] at hextensible
  obtain ⟨⟨⟨hsource, hvalue⟩, hsome⟩, hwhole⟩ := hextensible
  unfold extendImport
  split
  · next s hs =>
    obtain ⟨before, hbefore⟩ := List.getLast?_eq_some_iff.mp hs
    exact .behindNamed hi hsource hvalue hbefore
  · next hnone =>
    -- no specifier stands in braces and none is a namespace, so all are default bindings
    have hdefault : ∀ s' ∈ i.clause.specifiers, s'.form = .byDefault := by
      intro s' hs'
      have hnamed : s'.form ≠ .named := by
        intro hform
        have hmem : s' ∈ i.clause.specifiers.filter (·.form == .named) :=
          List.mem_filter.mpr ⟨hs', by simp [hform]⟩
        rw [List.getLast?_eq_none_iff.mp hnone] at hmem
        exact List.not_mem_nil hmem
      have hnotWhole := hwhole s' hs'
      cases hform : s'.form with
      | whole => exact absurd hform (by simpa using hnotWhole)
      | byDefault => rfl
      | named => exact absurd hform hnamed
    obtain ⟨s, hs, hstop, hlast⟩ := exists_last_stop hsome
    dsimp only
    rw [← hstop]
    exact .behindDefault hi hsource hvalue hs hdefault hlast

/-- A new import brings in the names. -/
theorem addsNames_newImport (imports : List ImportSite) (source : List Char) (path : String)
    {names : List String} (hsome : names ≠ []) :
    AddsNames imports path names (newImport imports source (importStatement names path)) := by
  -- a new statement stands on a line of its own, behind or before another
  have hbehind : ∀ at_, AddsNames imports path names
      ⟨Span.point at_, "\n" ++ importStatement names path⟩ := by
    intro at_
    have h : AddsNames imports path names
        ⟨Span.point at_, "\n" ++ importStatement names path ++ ""⟩ :=
      .statement rfl (importsNames_importStatement hsome)
    rwa [String.append_empty] at h
  have hbefore : ∀ at_, AddsNames imports path names
      ⟨Span.point at_, importStatement names path ++ "\n"⟩ := by
    intro at_
    have h : AddsNames imports path names
        ⟨Span.point at_, "" ++ importStatement names path ++ "\n"⟩ :=
      .statement rfl (importsNames_importStatement hsome)
    rwa [String.empty_append] at h
  unfold newImport
  split
  · exact hbehind _
  · split
    · dsimp only
      split
      · exact hbefore _
      · exact hbehind _
    · exact hbefore _

/-- The plan, given the names that are missing. -/
theorem planImport_eq (script : Tree) (source : List Char) (names : List String) (path : String) :
    planImport script source names path =
      match (importNames names).filterM (needsImport (importsOf script) (declared script) path) with
      | .error c => .error c
      | .ok missing =>
        if missing = [] then .ok none
        else
          match (importsOf script).find? (isExtensible path) with
          | some i => .ok (some (extendImport i (listed missing)))
          | none =>
            .ok (some (newImport (importsOf script) source (importStatement missing path))) := by
  unfold planImport
  dsimp only
  cases (importNames names).filterM (needsImport (importsOf script) (declared script) path) with
  | error c => rfl
  | ok missing =>
    -- without a missing name there is no plan; otherwise an import is extended or a new one made
    show (if missing.isEmpty = true then _ else _) = _
    cases missing with
    | nil => rfl
    | cons n missing =>
      cases (importsOf script).find? (isExtensible path) <;> rfl

/-- What a plan for an import does about the names that calls need, apart from some names. -/
def BindsCalls (script : Tree) (names : List String) (path : String) (apart : String → Prop) :
    Except Conflict (Option Edit) → Prop
  | .error c => IsHead names c.name ∧ BoundElsewhere script path c
  | .ok none => ∀ n, IsHead names n → BindsValue (importsOf script) path n ∨ apart n
  | .ok (some e) => ∃ missing : List String, missing.Nodup ∧
      (∀ n, n ∈ missing ↔
        IsHead names n ∧ ¬BindsValue (importsOf script) path n ∧ ¬apart n) ∧
      AddsNames (importsOf script) path missing e

/-- The names that are missing are the heads that no import of the path binds in any way. -/
theorem mem_missing_iff {script : Tree} {names : List String} {path : String}
    (hall : ∀ n ∈ importNames names, ∃ b,
      needsImport (importsOf script) (declared script) path n = .ok b) (n : String) :
    n ∈ ((importNames names).filter fun n =>
        passes (needsImport (importsOf script) (declared script) path n)) ↔
      IsHead names n ∧ ¬BindsValue (importsOf script) path n ∧
        ¬OnlyTyped (importsOf script) path n := by
  rw [List.mem_filter, (importNames_spec names).2]
  constructor
  · -- a name that no import has is bound neither as a value nor as a type
    rintro ⟨hhead, hpasses⟩
    obtain ⟨b, hb⟩ := hall n (((importNames_spec names).2 n).mpr hhead)
    rw [hb] at hpasses
    cases b with
    | true =>
      have hnot := needsImport_ok_true hb
      refine ⟨hhead, ?_, ?_⟩
      · rintro ⟨i, hi, -, -, s, hs, hname, -⟩
        exact hnot ⟨i, hi, s, hs, hname⟩
      · rintro ⟨-, i, hi, -, s, hs, hname, -⟩
        exact hnot ⟨i, hi, s, hs, hname⟩
    | false => exact absurd hpasses (by decide)
  · rintro ⟨hhead, hvalue, htyped⟩
    refine ⟨hhead, ?_⟩
    obtain ⟨b, hb⟩ := hall n (((importNames_spec names).2 n).mpr hhead)
    rw [hb]
    cases b with
    | true => rfl
    | false =>
      rcases needsImport_ok_false hb with hbinds | honly
      · exact absurd hbinds hvalue
      · exact absurd honly htyped

/-- A plan binds what the calls need, apart from names that are imported on the level of types. -/
theorem bindsCalls_planImport (script : Tree) (source : List Char) (names : List String)
    (path : String) :
    BindsCalls script names path (OnlyTyped (importsOf script) path)
      (planImport script source names path) := by
  obtain ⟨hnodup, hheads⟩ := importNames_spec names
  rw [planImport_eq]
  rcases filterM_cases (needsImport (importsOf script) (declared script) path)
    (importNames names) with ⟨n, hn, c, hneeds, herror⟩ | ⟨hall, hok⟩
  · -- a conflict, nothing to import, an import to extend, or a new one
    obtain ⟨hname, hbound⟩ := needsImport_error hneeds
    rw [herror]
    refine ⟨?_, hbound⟩
    rw [hname]
    exact (hheads n).mp hn
  · have hmissing := mem_missing_iff hall
    rw [hok]
    dsimp only
    split
    · next hnone =>
      intro n hhead
      rw [hnone] at hmissing
      by_contra hnot
      rw [not_or] at hnot
      exact List.not_mem_nil ((hmissing n).mpr ⟨hhead, hnot⟩)
    · next hsome =>
      split
      · next i hi =>
        exact ⟨_, hnodup.filter _, hmissing, addsNames_extendImport (List.mem_of_find?_eq_some hi)
          (List.find?_some hi)⟩
      · exact ⟨_, hnodup.filter _, hmissing, addsNames_newImport _ _ _ hsome⟩

/-- A script in which the lookup function is imported for its type alone. -/
def typeImporter : String :=
  "import type \x7b $t \x7d from \x22@/i18n\x22; const a = \x22你好\x22;"

/-- A name that is imported for its type is not bound as a value, and no import is added. -/
theorem not_bindsCalls_typed : ∃ script, parseModule typeImporter .ts = .ok script ∧
    ¬BindsCalls script ["$t"] "@/i18n" (fun _ => False)
      (planImport script typeImporter.toList ["$t"] "@/i18n") := by
  have heval : (parseModule typeImporter .ts).toOption.map (fun script =>
      ((importsOf script).all (·.clause.typeOnly),
        (planImport script typeImporter.toList ["$t"] "@/i18n").toOption.map Option.isNone)) =
      some (true, some true) := by
    decide +kernel
  obtain ⟨script, hparse, hview⟩ := exists_ok_of_toOption_map heval
  obtain ⟨htyped, hplan⟩ := Prod.mk.inj hview
  obtain ⟨plan, hplan, hnone⟩ := exists_ok_of_toOption_map hplan
  obtain rfl := Option.isNone_iff_eq_none.mp hnone
  refine ⟨script, hparse, ?_⟩
  rw [hplan]
  intro hall
  have hhead : IsHead ["$t"] "$t" := by
    refine ⟨by decide, by decide, by decide, "$t", List.mem_singleton_self _, by decide⟩
  -- the only import is one of types, and no conflict is reported
  rcases hall "$t" hhead with ⟨i, hi, -, hvalue, -⟩ | hfalse
  · have htype := List.all_eq_true.mp htyped i hi
    rw [hvalue] at htype
    exact Bool.noConfusion htype
  · exact hfalse

end Harvest

end TextHarvest
