import Mathlib.Data.List.Basic
import TextHarvest.Path

/-!
# What paths are made of

A path is known by its components. Putting a path behind another one appends components, the order
of paths is a strict total order of their components, and a path below a base is known again from
its relative form.

Main results:

* `components_join` and `components_join_name` — the components of a joined path.
* `pairwise_insertSorted` and `filter_insertSorted` — an ordered list of paths stays ordered, and
  taking paths out of it commutes with putting one in.
* `components_eq_of_relativeOrSelf` — a relative path belongs to one path only.
* `components_of_parent?` — the path above another one lacks its last component.
-/

namespace TextHarvest.Path

/-! ## Pieces -/

/-- Pieces are those between the occurrences of the mark. -/
theorem splitChars_eq_splitOn (mark : Char) (cs : List Char) :
    splitChars mark cs = cs.splitOn mark := by
  induction cs with
  | nil => simp [splitChars]
  | cons c cs ih =>
    rw [splitChars, List.splitOn_cons_eq_if_modifyHead, ih]
    split
    · rfl
    · cases hpieces : cs.splitOn mark with
      | nil => exact absurd hpieces (List.splitOn_ne_nil mark cs)
      | cons piece pieces => rfl

/-- Pieces do not hold the character at which they were cut. -/
theorem not_mem_of_mem_splitText {mark : Char} {s piece : String}
    (h : piece ∈ splitText mark s) : mark ∉ piece.toList := by
  rw [splitText, splitChars_eq_splitOn, List.mem_map] at h
  obtain ⟨cs, hcs, rfl⟩ := h
  rw [String.toList_ofList]
  -- by induction on the characters; the first piece grows at its front
  generalize s.toList = all at hcs
  induction all generalizing cs with
  | nil =>
    rw [List.splitOn_nil, List.mem_singleton] at hcs
    simp [hcs]
  | cons c rest ih =>
    rw [List.splitOn_cons_eq_if_modifyHead] at hcs
    split at hcs
    · rcases List.mem_cons.mp hcs with rfl | hcs
      · simp
      · exact ih cs hcs
    · rename_i hne
      cases hpieces : rest.splitOn mark with
      | nil => exact absurd hpieces (List.splitOn_ne_nil mark rest)
      | cons first pieces =>
        rw [hpieces, List.modifyHead_cons, List.mem_cons] at hcs
        rcases hcs with rfl | hcs
        · have hfirst := ih first (by rw [hpieces]; exact List.mem_cons_self)
          simp only [beq_iff_eq] at hne
          simp [Ne.symm hne, hfirst]
        · exact ih cs (by rw [hpieces]; exact List.mem_cons_of_mem _ hcs)

/-- There is always a piece, if only an empty one. -/
theorem splitText_ne_nil (mark : Char) (s : String) : splitText mark s ≠ [] := by
  rw [splitText, splitChars_eq_splitOn, Ne, List.map_eq_nil_iff]
  exact List.splitOn_ne_nil mark s.toList

/-- A text without slashes is its own piece. -/
theorem splitText_of_not_mem {s : String} (h : '/' ∉ s.toList) : splitText '/' s = [s] := by
  rw [splitText, splitChars_eq_splitOn, List.splitOn_eq_singleton h]
  simp

/-- The pieces on both sides of a slash. -/
theorem splitText_slash (a b : String) :
    splitText '/' (a ++ "/" ++ b) = splitText '/' a ++ splitText '/' b := by
  have hchars : (a ++ "/" ++ b).toList = a.toList ++ '/' :: b.toList := by
    simp
  simp only [splitText, splitChars_eq_splitOn]
  rw [hchars, List.splitOn_append_cons_self, List.map_append]

/-- Pieces without slashes come back from the text that they are joined to. -/
theorem splitText_intercalate {pieces : List String} (hne : pieces ≠ [])
    (hpieces : ∀ piece ∈ pieces, '/' ∉ piece.toList) :
    splitText '/' ("/".intercalate pieces) = pieces := by
  have hmarks : ∀ cs ∈ pieces.map String.toList, '/' ∉ cs := by
    simpa using hpieces
  rw [splitText, splitChars_eq_splitOn, String.toList_intercalate, show "/".toList = ['/'] from rfl,
    List.splitOn_intercalate '/' hmarks (by simpa using hne), List.map_map]
  simp

/-! ## Components -/

/-- The components of pieces that do not begin a path. -/
def componentsOf (pieces : List String) : List Component :=
  pieces.filterMap (componentOf? · false)

@[simp] theorem componentsOf_nil : componentsOf [] = [] := rfl

@[simp] theorem componentsOf_append (ps qs : List String) :
    componentsOf (ps ++ qs) = componentsOf ps ++ componentsOf qs :=
  List.filterMap_append

/-- A piece that stands for nothing is left out. -/
theorem componentsOf_cons_of_isVoid {piece : String} (h : isVoid piece = true)
    (pieces : List String) : componentsOf (piece :: pieces) = componentsOf pieces := by
  rw [isVoid, Bool.or_eq_true, beq_iff_eq, beq_iff_eq] at h
  rcases h with rfl | rfl <;> rfl

/-- Any other piece is a component. -/
theorem exists_componentOf {piece : String} (h : isVoid piece = false) (first : Bool) :
    ∃ c, componentOf? piece first = some c := by
  rw [isVoid, Bool.or_eq_false_iff, beq_eq_false_iff_ne, beq_eq_false_iff_ne] at h
  simp only [componentOf?, beq_iff_eq, h.1, h.2, if_false]
  split <;> exact ⟨_, rfl⟩

/-- A component comes first, whatever pieces follow it. -/
theorem componentsOf_cons_of_not_isVoid {piece : String} (h : isVoid piece = false) :
    ∃ c, ∀ pieces, componentsOf (piece :: pieces) = c :: componentsOf pieces := by
  obtain ⟨c, hc⟩ := exists_componentOf h false
  exact ⟨c, fun pieces => List.filterMap_cons_some hc⟩

/-- Pieces that stand for nothing have no components. -/
theorem componentsOf_eq_nil_of_all {pieces : List String}
    (h : ∀ piece ∈ pieces, isVoid piece = true) : componentsOf pieces = [] := by
  induction pieces with
  | nil => rfl
  | cons piece pieces ih =>
    rw [componentsOf_cons_of_isVoid (h piece List.mem_cons_self)]
    exact ih fun p hp => h p (List.mem_cons_of_mem _ hp)

/-- The components of the pieces of a path: the first piece counts also when it is empty or names
the current directory. -/
theorem components_eq {path first : String} {pieces : List String}
    (h : splitText '/' path = first :: pieces) :
    components path =
      if first = "" then (if pieces = [] then [] else .root :: componentsOf pieces)
      else (componentOf? first true).toList ++ componentsOf pieces := by
  rw [components, h]
  simp only [beq_iff_eq, List.isEmpty_iff, componentsOf]

/-- Only the empty text has nothing but an empty piece. -/
theorem splitText_eq_singleton_iff {s : String} : splitText '/' s = [""] ↔ s = "" := by
  constructor
  · intro h
    have hjoined : ['/'].intercalate (s.toList.splitOn '/') = s.toList :=
      List.intercalate_splitOn '/'
    rw [splitText, splitChars_eq_splitOn, List.map_eq_singleton_iff] at h
    obtain ⟨cs, hcs, hempty⟩ := h
    rw [hcs] at hjoined
    rw [← String.toList_inj, ← hjoined]
    simpa [List.intercalate] using congrArg String.toList hempty
  · rintro rfl
    rfl

/-- What follows a slash adds its components to those of a path. -/
theorem components_slash {a : String} (ha : a ≠ "") (b : String) :
    components (a ++ "/" ++ b) = components a ++ componentsOf (splitText '/' b) := by
  cases hpieces : splitText '/' a with
  | nil => exact absurd hpieces (splitText_ne_nil '/' a)
  | cons first pieces =>
    have hall : splitText '/' (a ++ "/" ++ b) = first :: (pieces ++ splitText '/' b) := by
      rw [splitText_slash, hpieces, List.cons_append]
    rw [components_eq hpieces, components_eq hall]
    -- an empty first piece stands for the root, whatever comes behind the slash
    by_cases hfirst : first = ""
    · have hmore : pieces ≠ [] := by
        rintro rfl
        rw [hfirst, splitText_eq_singleton_iff] at hpieces
        exact ha hpieces
      simp [hfirst, hmore]
    · simp [hfirst]

/-- A slash in front is the root. -/
theorem components_slash_start (b : String) :
    components ("/" ++ b) = .root :: componentsOf (splitText '/' b) := by
  have hall : splitText '/' ("/" ++ b) = "" :: splitText '/' b := by
    have hsplit := splitText_slash "" b
    rwa [String.empty_append] at hsplit
  rw [components_eq hall]
  simp [splitText_ne_nil]

/-- What stands in front of a slash at the end. -/
theorem exists_of_getLast?_slash {s : String} (h : s.toList.getLast? = some '/') :
    ∃ a, s = a ++ "/" := by
  obtain ⟨cs, hcs⟩ := List.getLast?_eq_some_iff.mp h
  refine ⟨String.ofList cs, ?_⟩
  rw [← String.toList_inj, hcs]
  simp

/-- A path that is put behind another one adds its components. -/
theorem components_join {base path : String} (hbase : base ≠ "")
    (hpath : isAbsolute path = false) :
    components (join base path) = components base ++ componentsOf (splitText '/' path) := by
  have hcond : (isAbsolute path || base == "") = false := by
    simp [hpath, hbase]
  rw [join, hcond, if_neg (by simp)]
  split
  · rename_i hslash
    obtain ⟨a, rfl⟩ := exists_of_getLast?_slash (by simpa using hslash)
    by_cases ha : a = ""
    · subst ha
      rw [String.empty_append, components_slash_start]
      rfl
    · -- the base ends with a slash, and the empty piece behind it is no component
      have hend := components_slash ha ""
      rw [String.append_empty] at hend
      rw [components_slash ha, hend]
      simp [show splitText '/' "" = [""] from rfl, componentsOf, componentOf?]
  · exact components_slash hbase path

/-- A name that can stand between slashes and is not one of the two dots. -/
structure IsName (name : String) : Prop where
  ne_empty : name ≠ ""
  ne_current : name ≠ "."
  ne_parent : name ≠ ".."
  slash_not_mem : '/' ∉ name.toList

instance (name : String) : Decidable (IsName name) :=
  decidable_of_iff (name ≠ "" ∧ name ≠ "." ∧ name ≠ ".." ∧ '/' ∉ name.toList)
    ⟨fun ⟨he, hc, hp, hs⟩ => ⟨he, hc, hp, hs⟩, fun ⟨he, hc, hp, hs⟩ => ⟨he, hc, hp, hs⟩⟩

/-- A path without slashes is not absolute. -/
theorem isAbsolute_of_not_mem {s : String} (h : '/' ∉ s.toList) : isAbsolute s = false := by
  rw [isAbsolute, beq_eq_false_iff_ne]
  intro hhead
  exact h (List.mem_of_mem_head? hhead)

/-- A name is the component of that name, wherever it stands. -/
theorem IsName.componentOf? {name : String} (h : IsName name) (first : Bool) :
    componentOf? name first = some (.name name) := by
  simp [Path.componentOf?, h.ne_empty, h.ne_current, h.ne_parent]

/-- A name is joined as one more component. -/
theorem components_join_name {name : String} (h : IsName name) (base : String) :
    components (join base name) = components base ++ [.name name] := by
  have hpieces := splitText_of_not_mem h.slash_not_mem
  have habsolute := isAbsolute_of_not_mem h.slash_not_mem
  by_cases hbase : base = ""
  · have hjoin : join base name = name := by
      simp [join, hbase]
    rw [hjoin, components_eq hpieces, if_neg h.ne_empty, h.componentOf?, hbase]
    rfl
  · rw [components_join hbase habsolute, hpieces]
    simp [componentsOf, h.componentOf?]

/-! ## Absolute paths -/

/-- What is joined to an absolute path is absolute. -/
theorem isAbsolute_join {base : String} (hbase : isAbsolute base = true) (path : String) :
    isAbsolute (join base path) = true := by
  rw [isAbsolute, beq_iff_eq] at hbase
  rw [join]
  split
  · rename_i hcond
    rw [Bool.or_eq_true, beq_iff_eq] at hcond
    rcases hcond with hpath | rfl
    · exact hpath
    · simp at hbase
  · split
    · simp [isAbsolute, hbase]
    · simp [isAbsolute, hbase]

/-- An absolute path has a slash. -/
theorem ne_empty_of_isAbsolute {path : String} (h : isAbsolute path = true) : path ≠ "" := by
  rintro rfl
  simp [isAbsolute] at h

/-- A join with something in front is not empty. -/
theorem join_ne_empty {base : String} (hbase : base ≠ "") (path : String) : join base path ≠ "" := by
  rw [join]
  split
  · rename_i hcond
    rw [Bool.or_eq_true, beq_iff_eq] at hcond
    rcases hcond with hpath | hempty
    · exact ne_empty_of_isAbsolute hpath
    · exact absurd hempty hbase
  · split <;> simp [hbase]

/-- The component that the first piece of a path names. -/
def frontOf (first : String) : Component :=
  if first = "" then .root else (componentOf? first true).getD .current

/-- The first piece tells whether a path is absolute, the others give its components. -/
theorem components_eq_front {path first : String} {pieces : List String} (hne : path ≠ "")
    (h : splitText '/' path = first :: pieces) :
    components path = frontOf first :: componentsOf pieces := by
  rw [components_eq h, frontOf]
  split
  · rename_i hfirst
    have hmore : pieces ≠ [] := by
      rintro rfl
      rw [hfirst, splitText_eq_singleton_iff] at h
      exact hne h
    rw [if_neg hmore]
  · rename_i hfirst
    -- a leading dot is kept, any other piece is a component of its own
    by_cases hdot : first = "."
    · subst hdot
      rfl
    · have hproper : isVoid first = false := by
        simp [isVoid, hfirst, hdot]
      obtain ⟨c, hc⟩ := exists_componentOf hproper true
      rw [hc]
      rfl

/-- The first piece of a path that is not empty is a component. -/
theorem exists_components_cons {path first : String} {pieces : List String}
    (h : splitText '/' path = first :: pieces) (hne : path ≠ "") :
    ∃ c, components path = c :: componentsOf pieces :=
  ⟨frontOf first, components_eq_front hne h⟩

/-- Only the empty path has no components. -/
theorem components_eq_nil_iff {path : String} : components path = [] ↔ path = "" := by
  constructor
  · intro h
    by_contra hne
    cases hpieces : splitText '/' path with
    | nil => exact splitText_ne_nil '/' path hpieces
    | cons first pieces =>
      obtain ⟨c, hc⟩ := exists_components_cons hpieces hne
      rw [h] at hc
      cases hc
  · rintro rfl
    rfl

/-- A path below a base, or one that starts at the root. -/
def Anchored (base path : String) : Prop :=
  startsWith path base = true ∨ isAbsolute path = true

/-- Paths are compared component by component. -/
theorem startsWith_iff {path base : String} :
    startsWith path base = true ↔ components base <+: components path := by
  rw [startsWith, List.isPrefixOf_iff_prefix]

/-- What is joined to an anchored path is anchored at the same base. -/
theorem Anchored.join {base path : String} (h : Anchored base path) (more : String) :
    Anchored base (join path more) := by
  by_cases hmore : isAbsolute more = true
  · refine Or.inr ?_
    rw [Path.join, hmore, Bool.true_or, if_pos rfl]
    exact hmore
  · rw [Bool.not_eq_true] at hmore
    rcases h with hbelow | habsolute
    · refine Or.inl ?_
      rw [startsWith_iff] at hbelow ⊢
      by_cases hpath : path = ""
      · -- the base of an empty path is empty, and so every path starts with it
        rw [hpath] at hbelow
        have hbase : components base = [] := List.prefix_nil.mp hbelow
        rw [hbase]
        exact List.nil_prefix
      · rw [components_join hpath hmore]
        exact hbelow.trans (List.prefix_append _ _)
    · exact Or.inr (isAbsolute_join habsolute more)

/-- Any number of names may be joined. -/
theorem Anchored.foldl_join {base path : String} (h : Anchored base path) (names : List String) :
    Anchored base (names.foldl Path.join path) := by
  induction names generalizing path with
  | nil => exact h
  | cons name names ih => exact ih (h.join name)

/-! ## Order -/

/-- Names are the last kind, and of two names the text decides. -/
theorem Component.before_iff {a b : Component} : a.before b = true ↔
    a.rank < b.rank ∨ ∃ m n, a = .name m ∧ b = .name n ∧ m < n := by
  cases a <;> cases b <;> simp only [before, rank, decide_eq_true_eq] <;> simp

/-- No component comes before itself. -/
theorem Component.before_irrefl (a : Component) : a.before a = false := by
  rw [Bool.eq_false_iff, ne_eq, before_iff]
  rintro (hrank | ⟨m, n, rfl, hname, hlt⟩)
  · exact Nat.lt_irrefl _ hrank
  · obtain rfl := Component.name.inj hname
    exact String.lt_irrefl _ hlt

/-- The order of components is transitive. -/
theorem Component.before_trans {a b c : Component} (hab : a.before b = true)
    (hbc : b.before c = true) : a.before c = true := by
  rw [before_iff] at hab hbc ⊢
  rcases hab with hab | ⟨m, n, rfl, rfl, hmn⟩
  · rcases hbc with hbc | ⟨m, n, rfl, rfl, -⟩
    · exact Or.inl (Nat.lt_trans hab hbc)
    · exact Or.inl hab
  · rcases hbc with hbc | ⟨n', k, hname, rfl, hnk⟩
    · exact Or.inl hbc
    · obtain rfl := Component.name.inj hname
      exact Or.inr ⟨m, k, rfl, rfl, String.lt_trans hmn hnk⟩

/-- Two components of which neither comes first are equal. -/
theorem Component.eq_of_not_before {a b : Component} (hab : a.before b = false)
    (hba : b.before a = false) : a = b := by
  rw [Bool.eq_false_iff, ne_eq, before_iff, not_or] at hab hba
  cases a with
  | name m =>
    cases b with
    | name n =>
      -- of two names neither comes first only when they are the same
      have hle : m ≤ n := fun hlt => hba.2 ⟨n, m, rfl, rfl, hlt⟩
      have hge : n ≤ m := fun hlt => hab.2 ⟨m, n, rfl, rfl, hlt⟩
      rw [String.le_antisymm hle hge]
    | _ => simp [rank] at hab hba
  | _ =>
    cases b <;> simp [rank] at hab hba
    rfl

/-- No path comes before itself. -/
theorem componentsBefore_irrefl (as : List Component) : componentsBefore as as = false := by
  induction as with
  | nil => rfl
  | cons a as ih => simp [componentsBefore, Component.before_irrefl, ih]

/-- The order of paths is transitive. -/
theorem componentsBefore_trans {as bs cs : List Component} (hab : componentsBefore as bs = true)
    (hbc : componentsBefore bs cs = true) : componentsBefore as cs = true := by
  -- the first components decide, or else the rests do
  induction as generalizing bs cs with
  | nil =>
    cases bs with
    | nil => cases hab
    | cons b bs =>
      cases cs with
      | nil => cases hbc
      | cons c cs => rfl
  | cons a as ih =>
    cases bs with
    | nil => cases hab
    | cons b bs =>
      cases cs with
      | nil => cases hbc
      | cons c cs =>
        simp only [componentsBefore, Bool.or_eq_true, Bool.and_eq_true, beq_iff_eq] at hab hbc ⊢
        rcases hab with hab | ⟨rfl, hab⟩
        · rcases hbc with hbc | ⟨rfl, -⟩
          · exact Or.inl (Component.before_trans hab hbc)
          · exact Or.inl hab
        · rcases hbc with hbc | ⟨rfl, hbc⟩
          · exact Or.inl hbc
          · exact Or.inr ⟨rfl, ih hab hbc⟩

/-- Two paths of which neither comes first have the same components. -/
theorem eq_of_not_componentsBefore {as bs : List Component} (hab : componentsBefore as bs = false)
    (hba : componentsBefore bs as = false) : as = bs := by
  induction as generalizing bs with
  | nil =>
    cases bs with
    | nil => rfl
    | cons b bs => cases hab
  | cons a as ih =>
    cases bs with
    | nil => cases hba
    | cons b bs =>
      simp only [componentsBefore, Bool.or_eq_false_iff] at hab hba
      obtain rfl := Component.eq_of_not_before hab.1 hba.1
      rw [ih (by simpa using hab.2) (by simpa using hba.2)]

/-- Whether a path comes before another. -/
def Before (p q : String) : Prop :=
  componentsBefore (components p) (components q) = true

/-- The order of paths is transitive. -/
theorem Before.trans {p q r : String} (hpq : Before p q) (hqr : Before q r) : Before p r :=
  componentsBefore_trans hpq hqr

/-- A path that comes before another one has other components. -/
theorem Before.components_ne {p q : String} (h : Before p q) : components p ≠ components q := by
  intro heq
  rw [Before, heq, componentsBefore_irrefl] at h
  cases h

/-- What putting a path in comes to: it is there already, or it comes first, or later. -/
theorem insertSorted_cons (path p : String) (ps : List String) :
    (components path = components p ∧ insertSorted path (p :: ps) = p :: ps) ∨
      (Before path p ∧ insertSorted path (p :: ps) = path :: p :: ps) ∨
      Before p path ∧ insertSorted path (p :: ps) = p :: insertSorted path ps := by
  by_cases heq : components path = components p
  · exact Or.inl ⟨heq, by simp [insertSorted, heq]⟩
  · by_cases hbefore : componentsBefore (components path) (components p) = true
    · exact Or.inr (Or.inl ⟨hbefore, by simp [insertSorted, heq, hbefore]⟩)
    · refine Or.inr (Or.inr ⟨?_, by simp [insertSorted, heq, hbefore]⟩)
      rw [Before]
      by_contra hafter
      rw [Bool.not_eq_true] at hbefore hafter
      exact heq (eq_of_not_componentsBefore hbefore hafter)

/-- An insertion adds nothing but the path. -/
theorem mem_of_mem_insertSorted {path p : String} {ps : List String}
    (h : p ∈ insertSorted path ps) : p = path ∨ p ∈ ps := by
  induction ps with
  | nil => exact Or.inl (List.mem_singleton.mp h)
  | cons q ps ih =>
    rcases insertSorted_cons path q ps with ⟨-, heq⟩ | ⟨-, heq⟩ | ⟨-, heq⟩
    · exact Or.inr (heq ▸ h)
    · rw [heq] at h
      exact List.mem_cons.mp h
    · rw [heq] at h
      rcases List.mem_cons.mp h with rfl | h
      · exact Or.inr List.mem_cons_self
      · exact (ih h).imp_right (List.mem_cons_of_mem _)

/-- An insertion keeps the order. -/
theorem pairwise_insertSorted (path : String) {ps : List String} (h : ps.Pairwise Before) :
    (insertSorted path ps).Pairwise Before := by
  induction ps with
  | nil => exact List.pairwise_singleton _ _
  | cons p ps ih =>
    obtain ⟨hp, hps⟩ := List.pairwise_cons.mp h
    -- the new path is this one, comes before it or belongs behind it
    rcases insertSorted_cons path p ps with ⟨-, heq⟩ | ⟨hbefore, heq⟩ | ⟨hafter, heq⟩
    · rw [heq]
      exact h
    · rw [heq, List.pairwise_cons]
      refine ⟨?_, h⟩
      intro q hq
      rcases List.mem_cons.mp hq with rfl | hq
      · exact hbefore
      · exact hbefore.trans (hp q hq)
    · rw [heq, List.pairwise_cons]
      refine ⟨?_, ih hps⟩
      intro q hq
      rcases mem_of_mem_insertSorted hq with rfl | hq
      · exact hafter
      · exact hp q hq

/-- A path that comes before all others is put in front. -/
theorem insertSorted_of_before {path : String} {ps : List String}
    (h : ∀ p ∈ ps, Before path p) : insertSorted path ps = path :: ps := by
  cases ps with
  | nil => rfl
  | cons p ps =>
    have hp := h p List.mem_cons_self
    have hbefore : componentsBefore (components path) (components p) = true := hp
    simp [insertSorted, hp.components_ne, hbefore]

/-- Paths are taken out by their components before or after a path is put in. -/
theorem filter_insertSorted {keep : String → Bool}
    (hkeep : ∀ p q, components p = components q → keep p = keep q) (path : String)
    {ps : List String} (h : ps.Pairwise Before) :
    (insertSorted path ps).filter keep =
      if keep path = true then insertSorted path (ps.filter keep) else ps.filter keep := by
  induction ps with
  | nil => simp [insertSorted, List.filter_cons]
  | cons p ps ih =>
    obtain ⟨hp, hps⟩ := List.pairwise_cons.mp h
    have ih := ih hps
    rcases insertSorted_cons path p ps with ⟨hsame, heq⟩ | ⟨hbefore, heq⟩ | ⟨hafter, heq⟩
    · -- the path is there already
      rw [heq]
      by_cases hpath : keep path = true
      · have hkept : keep p = true := hkeep path p hsame ▸ hpath
        rw [if_pos hpath, List.filter_cons_of_pos hkept, insertSorted, hsame]
        simp
      · rw [if_neg hpath]
    · -- the path comes before all others, also before those that stay
      have hfront : ∀ q ∈ (p :: ps).filter keep, Before path q := by
        intro q hq
        rcases List.mem_cons.mp (List.mem_filter.mp hq).1 with rfl | hq
        · exact hbefore
        · exact hbefore.trans (hp q hq)
      rw [heq, insertSorted_of_before hfront]
      by_cases hpath : keep path = true
      · rw [List.filter_cons_of_pos hpath, if_pos hpath]
      · rw [List.filter_cons_of_neg hpath, if_neg hpath]
    · rw [heq]
      by_cases hp' : keep p = true
      · rw [List.filter_cons_of_pos hp', ih, List.filter_cons_of_pos hp']
        split
        · rcases insertSorted_cons path p (ps.filter keep) with ⟨hsame, -⟩ | ⟨hbefore, -⟩ | ⟨-, heq⟩
          · exact absurd hsame.symm hafter.components_ne
          · exact absurd rfl (hafter.trans hbefore).components_ne
          · exact heq.symm
        · rfl
      · rw [List.filter_cons_of_neg hp', ih, List.filter_cons_of_neg hp']

/-! ## Relative paths -/

/-- Void pieces in front may be dropped. -/
theorem componentsOf_dropWhile (pieces : List String) :
    componentsOf (pieces.dropWhile isVoid) = componentsOf pieces := by
  induction pieces with
  | nil => rfl
  | cons piece pieces ih =>
    by_cases hvoid : isVoid piece = true
    · rw [List.dropWhile_cons_of_pos hvoid, componentsOf_cons_of_isVoid hvoid, ih]
    · rw [List.dropWhile_cons_of_neg hvoid]

/-- Void pieces at the end may be dropped. -/
theorem componentsOf_dropVoidEnd (pieces : List String) :
    componentsOf (dropVoidEnd pieces) = componentsOf pieces := by
  have hall : ∀ piece ∈ pieces.reverse.takeWhile isVoid, isVoid piece = true :=
    List.all_eq_true.mp List.all_takeWhile
  have hcut : dropVoidEnd pieces ++ (pieces.reverse.takeWhile isVoid).reverse = pieces := by
    rw [dropVoidEnd, ← List.reverse_append, List.takeWhile_append_dropWhile, List.reverse_reverse]
  have hvoid : componentsOf (pieces.reverse.takeWhile isVoid).reverse = [] :=
    componentsOf_eq_nil_of_all fun piece hpiece => hall piece (List.mem_reverse.mp hpiece)
  conv_rhs => rw [← hcut, componentsOf_append, hvoid, List.append_nil]

/-- Pieces are dropped up to a number of components. -/
theorem componentsOf_dropComponents (n : Nat) (pieces : List String) :
    componentsOf (dropComponents n pieces) = (componentsOf pieces).drop n := by
  induction pieces generalizing n with
  | nil => cases n <;> rfl
  | cons piece pieces ih =>
    cases n with
    | zero => rfl
    | succ n =>
      rw [dropComponents]
      -- an empty piece is no component, so dropping it does not count
      by_cases hvoid : isVoid piece = true
      · rw [if_pos hvoid, ih, componentsOf_cons_of_isVoid hvoid]
      · rw [if_neg hvoid, ih]
        rw [Bool.not_eq_true] at hvoid
        obtain ⟨c, hc⟩ := componentsOf_cons_of_not_isVoid hvoid
        rw [hc, List.drop_succ_cons]

/-- Dropping adds no piece. -/
theorem mem_of_mem_dropVoidEnd {piece : String} {pieces : List String}
    (h : piece ∈ dropVoidEnd pieces) : piece ∈ pieces := by
  rw [dropVoidEnd, List.mem_reverse] at h
  exact List.mem_reverse.mp ((List.dropWhile_sublist _).subset h)

/-- Dropping adds no piece. -/
theorem mem_of_mem_dropComponents {n : Nat} {piece : String} {pieces : List String}
    (h : piece ∈ dropComponents n pieces) : piece ∈ pieces := by
  induction pieces generalizing n with
  | nil => cases n <;> cases h
  | cons q pieces ih =>
    cases n with
    | zero => exact h
    | succ n =>
      rw [dropComponents] at h
      split at h
      · exact List.mem_cons_of_mem _ (ih h)
      · exact List.mem_cons_of_mem _ (ih h)

/-- Joined pieces have the components of the pieces, even when there are none. -/
theorem componentsOf_splitText_intercalate {pieces : List String}
    (h : ∀ piece ∈ pieces, '/' ∉ piece.toList) :
    componentsOf (splitText '/' ("/".intercalate pieces)) = componentsOf pieces := by
  by_cases hne : pieces = []
  · subst hne
    rfl
  · rw [splitText_intercalate hne h]

/-- A path keeps its components when it is trimmed. -/
theorem components_trimmed (path : String) : components (trimmed path) = components path := by
  cases hpieces : splitText '/' path with
  | nil => exact absurd hpieces (splitText_ne_nil '/' path)
  | cons first pieces =>
    have hslash : ∀ piece ∈ first :: pieces, '/' ∉ piece.toList := by
      intro piece hpiece
      exact not_mem_of_mem_splitText (hpieces ▸ hpiece)
    have hkept := componentsOf_dropVoidEnd pieces
    rw [components_eq hpieces]
    cases hdrop : dropVoidEnd pieces with
    | nil =>
      -- behind the first piece nothing counts, so only the first piece is left or the root
      have htrimmed : trimmed path = if first == "" && !pieces.isEmpty then "/" else first := by
        simp only [trimmed, hpieces, hdrop]
      rw [hdrop, componentsOf_nil] at hkept
      rw [htrimmed, ← hkept]
      by_cases hfirst : first = ""
      · by_cases hmore : pieces = []
        · simp only [hfirst, hmore]
          rfl
        · simp only [hfirst, hmore, beq_self_eq_true, Bool.true_and, Bool.not_eq_true',
            List.isEmpty_eq_false_iff, ne_eq, not_false_eq_true, if_true, if_false]
          rfl
      · have hsingle := splitText_of_not_mem (hslash first List.mem_cons_self)
        simp only [hfirst, beq_iff_eq, Bool.and_eq_true, false_and, if_false]
        rw [components_eq hsingle, if_neg hfirst, componentsOf_nil]
    | cons piece kept =>
      have htrimmed : trimmed path = "/".intercalate (first :: piece :: kept) := by
        simp only [trimmed, hpieces, hdrop]
      have hmem : ∀ q ∈ first :: piece :: kept, '/' ∉ q.toList := by
        intro q hq
        rcases List.mem_cons.mp hq with rfl | hq
        · exact hslash q List.mem_cons_self
        · rw [← hdrop] at hq
          exact hslash q (List.mem_cons_of_mem _ (mem_of_mem_dropVoidEnd hq))
      have hmore : pieces ≠ [] := by
        rintro rfl
        cases hdrop
      rw [htrimmed, components_eq (splitText_intercalate (by simp) hmem), ← hdrop, hkept]
      simp [hdrop, hmore]

/-- Pieces are dropped at the end only. -/
theorem dropVoidEnd_prefix (pieces : List String) : dropVoidEnd pieces <+: pieces := by
  rw [dropVoidEnd, ← List.reverse_suffix, List.reverse_reverse]
  exact List.dropWhile_suffix _

/-- Pieces that begin with a proper one are not joined to an absolute path. -/
theorem isAbsolute_intercalate {pieces : List String}
    (hslash : ∀ piece ∈ pieces, '/' ∉ piece.toList) (hfirst : ∀ piece ∈ pieces.head?, piece ≠ "") :
    isAbsolute ("/".intercalate pieces) = false := by
  cases pieces with
  | nil => rfl
  | cons piece pieces =>
    obtain ⟨c, cs, hcs⟩ := List.exists_cons_of_ne_nil
      (fun hnil => hfirst piece rfl (String.toList_eq_nil_iff.mp hnil) : piece.toList ≠ [])
    have hc : c ≠ '/' := by
      rintro rfl
      exact hslash piece List.mem_cons_self (hcs ▸ List.mem_cons_self)
    -- the path begins with the first character of its first piece
    have hhead : ("/".intercalate (piece :: pieces)).toList.head? = some c := by
      cases pieces with
      | nil => simp [hcs]
      | cons next pieces => simp [String.intercalate_cons_cons, hcs]
    rw [isAbsolute, hhead]
    simpa using hc

/-- The pieces that are left of a path when some components are passed. -/
def remainder (n : Nat) (pieces : List String) : List String :=
  dropVoidEnd ((dropComponents n pieces).dropWhile isVoid)

/-- The remainder has the components behind the first ones. -/
theorem componentsOf_remainder (n : Nat) (pieces : List String) :
    componentsOf (remainder n pieces) = (componentsOf pieces).drop n := by
  rw [remainder, componentsOf_dropVoidEnd, componentsOf_dropWhile, componentsOf_dropComponents]

/-- The remainder adds no piece. -/
theorem mem_of_mem_remainder {n : Nat} {piece : String} {pieces : List String}
    (h : piece ∈ remainder n pieces) : piece ∈ pieces :=
  mem_of_mem_dropComponents ((List.dropWhile_sublist _).subset (mem_of_mem_dropVoidEnd h))

/-- The first piece that is left counts. -/
theorem isVoid_of_head?_remainder {n : Nat} {piece : String} {pieces : List String}
    (h : (remainder n pieces).head? = some piece) : isVoid piece = false := by
  obtain ⟨dropped, hdropped⟩ := dropVoidEnd_prefix ((dropComponents n pieces).dropWhile isVoid)
  have hhead : ((dropComponents n pieces).dropWhile isVoid).head? = some piece := by
    rw [← hdropped, List.head?_append, ← remainder, h, Option.some_or]
  have hproper := List.head?_dropWhile_not isVoid (dropComponents n pieces)
  rw [hhead] at hproper
  simpa using hproper

/-- The relative path is what is left behind the components of a base that is not empty. -/
theorem relativeTo?_eq_some {path base r : String} (hbase : base ≠ "")
    (h : relativeTo? path base = some r) : components base <+: components path ∧
      r = "/".intercalate
        (remainder ((components base).length - 1) ((splitText '/' path).drop 1)) := by
  rw [relativeTo?] at h
  split at h
  · rename_i hbelow
    refine ⟨startsWith_iff.mp hbelow, ?_⟩
    -- the components of the base are skipped, the rest of the text stays as it is written
    cases hcomponents : components base with
    | nil => exact absurd (components_eq_nil_iff.mp hcomponents) hbase
    | cons c skipped =>
      rw [hcomponents] at h
      exact (Option.some.inj h).symm
  · cases h

/-- A path is its base with the components of the relative path behind it, if the base is not
empty; the relative path is then not absolute. -/
theorem components_of_relativeTo? {path base r : String} (hbase : base ≠ "")
    (h : relativeTo? path base = some r) :
    components path = components base ++ componentsOf (splitText '/' r) ∧
      isAbsolute r = false := by
  obtain ⟨⟨more, hmore⟩, rfl⟩ := relativeTo?_eq_some hbase h
  have hne : path ≠ "" := by
    rintro rfl
    rw [components_eq_nil_iff.mpr rfl, List.append_eq_nil_iff] at hmore
    exact hbase (components_eq_nil_iff.mp hmore.1)
  cases hpieces : splitText '/' path with
  | nil => exact absurd hpieces (splitText_ne_nil '/' path)
  | cons first pieces =>
    rw [List.drop_one, List.tail_cons]
    have hslash : ∀ piece ∈ remainder ((components base).length - 1) pieces,
        '/' ∉ piece.toList := fun piece hpiece =>
      not_mem_of_mem_splitText (hpieces ▸ List.mem_cons_of_mem _ (mem_of_mem_remainder hpiece))
    constructor
    · -- the first piece is one component, and the base starts with it
      obtain ⟨c, hc⟩ := exists_components_cons hpieces hne
      rw [componentsOf_splitText_intercalate hslash, componentsOf_remainder, ← hmore]
      cases hcomponents : components base with
      | nil => exact absurd (components_eq_nil_iff.mp hcomponents) hbase
      | cons c' skipped =>
        rw [hc, hcomponents, List.cons_append] at hmore
        rw [← (List.cons.inj hmore).2, List.length_cons, Nat.add_sub_cancel, List.drop_left]
    · refine isAbsolute_intercalate hslash ?_
      intro piece hpiece hempty
      have hproper := isVoid_of_head?_remainder hpiece
      simp [hempty, isVoid] at hproper

/-- A path that is not below a base it is anchored at is absolute. -/
theorem isAbsolute_of_relativeTo?_eq_none {path base : String} (hpath : Anchored base path)
    (h : relativeTo? path base = none) : isAbsolute path = true := by
  rcases hpath with hbelow | habsolute
  · rw [relativeTo?, if_pos hbelow] at h
    split at h <;> cases h
  · exact habsolute

/-- A relative path belongs to one path only, up to void pieces. -/
theorem components_eq_of_relativeOrSelf {base p q : String} (hp : Anchored base p)
    (hq : Anchored base q) (h : relativeOrSelf p base = relativeOrSelf q base) :
    components p = components q := by
  by_cases hbase : base = ""
  · have hall : ∀ path, relativeOrSelf path base = trimmed path := by
      intro path
      simp [relativeOrSelf, relativeTo?, startsWith, hbase, components_eq_nil_iff.mpr rfl]
    rw [← components_trimmed p, ← components_trimmed q, ← hall, ← hall, h]
  · -- a path below the base has a relative path that is not absolute, any other one keeps its own
    rw [relativeOrSelf, relativeOrSelf] at h
    cases hrp : relativeTo? p base with
    | some r =>
      obtain ⟨hpcomponents, hrelative⟩ := components_of_relativeTo? hbase hrp
      cases hrq : relativeTo? q base with
      | some r' =>
        rw [hrp, hrq, Option.getD_some, Option.getD_some] at h
        rw [hpcomponents, (components_of_relativeTo? hbase hrq).1, h]
      | none =>
        rw [hrp, hrq, Option.getD_some, Option.getD_none] at h
        rw [h, isAbsolute_of_relativeTo?_eq_none hq hrq] at hrelative
        cases hrelative
    | none =>
      cases hrq : relativeTo? q base with
      | some r' =>
        obtain ⟨-, hrelative⟩ := components_of_relativeTo? hbase hrq
        rw [hrp, hrq, Option.getD_none, Option.getD_some] at h
        rw [← h, isAbsolute_of_relativeTo?_eq_none hp hrp] at hrelative
        cases hrelative
      | none =>
        rw [hrp, hrq, Option.getD_none, Option.getD_none] at h
        rw [h]

/-! ## Parents -/

/-- A path is absolute just when its first piece is empty. -/
theorem isAbsolute_iff {path first : String} {pieces : List String} (hne : path ≠ "")
    (h : splitText '/' path = first :: pieces) : isAbsolute path = true ↔ first = "" := by
  rw [isAbsolute, beq_iff_eq]
  rw [splitText] at h
  cases hchars : path.toList with
  | nil => exact absurd (String.toList_eq_nil_iff.mp hchars) hne
  | cons c cs =>
    rw [hchars, splitChars] at h
    rw [List.head?_cons, Option.some.injEq]
    split at h
    · rename_i hslash
      rw [List.map_cons] at h
      simp [beq_iff_eq.mp hslash, ← (List.cons.inj h).1]
    · rename_i hslash
      rw [beq_iff_eq] at hslash
      -- the first piece starts with the first character
      split at h
      all_goals
        rw [List.map_cons] at h
        simp [hslash, ← (List.cons.inj h).1]

/-- The first piece is dropped only when nothing behind it is kept. -/
theorem dropVoidEnd_cons (piece : String) (pieces : List String) :
    dropVoidEnd (piece :: pieces) =
      if dropVoidEnd pieces = [] then (if isVoid piece then [] else [piece])
      else piece :: dropVoidEnd pieces := by
  simp only [dropVoidEnd, List.reverse_cons, List.dropWhile_append, List.reverse_eq_nil_iff,
    List.isEmpty_iff]
  split
  · by_cases hvoid : isVoid piece = true <;> simp [hvoid]
  · simp

/-- The last piece that is left counts. -/
theorem exists_dropVoidEnd_eq {pieces : List String} (h : dropVoidEnd pieces ≠ []) :
    ∃ init last, dropVoidEnd pieces = init ++ [last] ∧ isVoid last = false := by
  obtain ⟨init, last, hlast⟩ := (List.eq_nil_or_concat' _).resolve_left h
  refine ⟨init, last, hlast, ?_⟩
  have hhead : (pieces.reverse.dropWhile isVoid).head? = some last := by
    rw [← List.getLast?_reverse, ← dropVoidEnd, hlast, List.getLast?_concat]
  have hproper := List.head?_dropWhile_not isVoid pieces.reverse
  rw [hhead] at hproper
  simpa using hproper

/-- Behind the first piece there is no root. -/
theorem componentOf?_ne_root {piece : String} {c : Component}
    (h : componentOf? piece false = some c) : c ≠ .root := by
  rintro rfl
  simp only [componentOf?] at h
  split_ifs at h <;> cases h

/-- Pieces behind the first have no root among their components. -/
theorem root_not_mem_componentsOf (pieces : List String) :
    Component.root ∉ componentsOf pieces := by
  intro hmem
  obtain ⟨piece, -, hpiece⟩ := List.mem_filterMap.mp hmem
  exact componentOf?_ne_root hpiece rfl

/-- Only the front of a path is the root. -/
theorem root_not_mem_tail_components (path : String) :
    Component.root ∉ (components path).tail := by
  by_cases hne : path = ""
  · rw [components_eq_nil_iff.mpr hne]
    exact List.not_mem_nil
  · cases hpieces : splitText '/' path with
    | nil => exact absurd hpieces (splitText_ne_nil '/' path)
    | cons first pieces =>
      rw [components_eq_front hne hpieces]
      exact root_not_mem_componentsOf pieces

/-- Pieces that are joined again are the components that they name. -/
theorem components_intercalate_front {first : String} {pieces : List String}
    (hslash : ∀ piece ∈ first :: pieces, '/' ∉ piece.toList) (hne : first ≠ "" ∨ pieces ≠ []) :
    components ("/".intercalate (first :: pieces)) = frontOf first :: componentsOf pieces := by
  have hpieces := splitText_intercalate (by simp) hslash
  refine components_eq_front ?_ hpieces
  intro hempty
  rw [hempty, show splitText '/' "" = [""] from rfl] at hpieces
  obtain ⟨hfirst, hnil⟩ := List.cons.inj hpieces
  exact hne.elim (fun h => h hfirst.symm) (fun h => h hnil.symm)

/-- What a parent looks like: the pieces without the last one, joined again. -/
theorem parent?_eq_some {path parent : String} (h : parent? path = some parent) :
    (components path).getLast? ≠ some .root ∧
      parent =
        if dropVoidEnd (dropVoidEnd (splitText '/' path)).dropLast = [] then
          (if isAbsolute path then "/" else "")
        else "/".intercalate (dropVoidEnd (dropVoidEnd (splitText '/' path)).dropLast) := by
  rw [parent?] at h
  split at h
  · cases h
  · cases h
  · rename_i c hproper hlast
    refine ⟨fun hroot => hproper (Option.some.inj (hlast.symm.trans hroot)), ?_⟩
    split at h
    · -- a single component has the empty path for its parent
      rename_i hnil
      rw [if_pos hnil, ← Option.some.inj h]
    · rename_i hmore
      rw [if_neg hmore, ← Option.some.inj h]

/-- The pieces that begin a path, joined without the void ones at their end, have the components that
they name; a dot at the front goes when nothing else is left. -/
theorem exists_components_front {path parent first : String} {init : List String}
    (habsolute : isAbsolute path = true ↔ first = "")
    (hslash : ∀ piece ∈ first :: init, '/' ∉ piece.toList)
    (hparent : parent =
      if dropVoidEnd (first :: init) = [] then (if isAbsolute path then "/" else "")
      else "/".intercalate (dropVoidEnd (first :: init))) :
    ∃ dots, (∀ c ∈ dots, c = .current) ∧
      frontOf first :: componentsOf init = dots ++ components parent := by
  have hinit := componentsOf_dropVoidEnd init
  rw [dropVoidEnd_cons] at hparent
  -- a piece behind the first one counts, or only the first one is left
  by_cases hrest : dropVoidEnd init = []
  · rw [hrest, componentsOf_nil] at hinit
    rw [if_pos hrest] at hparent
    rw [← hinit]
    by_cases hvoid : isVoid first = true
    · -- a void piece at the front is the root or a dot
      rw [if_pos hvoid, if_pos rfl] at hparent
      rw [isVoid, Bool.or_eq_true, beq_iff_eq, beq_iff_eq] at hvoid
      rcases hvoid with rfl | rfl
      · rw [if_pos (habsolute.mpr rfl)] at hparent
        exact ⟨[], by simp, by rw [hparent]; rfl⟩
      · rw [if_neg (by simp [habsolute])] at hparent
        exact ⟨[.current], by simp, by rw [hparent]; rfl⟩
    · have hname : first ≠ "" := by
        rintro rfl
        exact hvoid rfl
      have hone : ∀ piece ∈ [first], '/' ∉ piece.toList := fun piece hpiece =>
        hslash piece (by simpa using Or.inl (List.mem_singleton.mp hpiece))
      rw [if_neg hvoid, if_neg (by simp)] at hparent
      rw [hparent, components_intercalate_front hone (Or.inl hname)]
      exact ⟨[], by simp, rfl⟩
  · have hkept : ∀ piece ∈ first :: dropVoidEnd init, '/' ∉ piece.toList := by
      intro piece hpiece
      rcases List.mem_cons.mp hpiece with rfl | hpiece
      · exact hslash piece List.mem_cons_self
      · exact hslash piece (List.mem_cons_of_mem _ (mem_of_mem_dropVoidEnd hpiece))
    rw [if_neg hrest, if_neg (by simp)] at hparent
    rw [hparent, components_intercalate_front hkept (Or.inr hrest), hinit]
    exact ⟨[], by simp, rfl⟩

/-- Nothing is above the empty path and above the root. -/
theorem components_of_parent?_eq_none {path : String} (h : parent? path = none) :
    components path = [] ∨ components path = [.root] := by
  have hroot := root_not_mem_tail_components path
  have hlast : (components path).getLast? = none ∨ (components path).getLast? = some .root := by
    rw [parent?] at h
    split at h
    · rename_i hlast
      exact Or.inl hlast
    · rename_i hlast
      exact Or.inr hlast
    · split at h <;> cases h
  cases hcomponents : components path with
  | nil => exact Or.inl rfl
  | cons c cs =>
    rw [hcomponents] at hroot hlast
    rcases hlast with hlast | hlast
    · simp at hlast
    · cases cs with
      | nil => exact Or.inr (by simpa using hlast)
      | cons d ds =>
        -- the root comes first only
        rw [List.getLast?_cons_cons] at hlast
        exact absurd (List.mem_of_getLast? hlast) hroot

/-- The path above another one has all its components but the last; a dot at the front goes when
nothing else is left. -/
theorem components_of_parent? {path parent : String} (h : parent? path = some parent) :
    ∃ dots last, (∀ c ∈ dots, c = Component.current) ∧ last ≠ Component.root ∧
      components path = dots ++ components parent ++ [last] := by
  have hne : path ≠ "" := by
    rintro rfl
    cases h
  obtain ⟨hroot, hparent⟩ := parent?_eq_some h
  cases hpieces : splitText '/' path with
  | nil => exact absurd hpieces (splitText_ne_nil '/' path)
  | cons first pieces =>
    have hpath := components_eq_front hne hpieces
    have habsolute := isAbsolute_iff hne hpieces
    have hkept := componentsOf_dropVoidEnd pieces
    rw [hpieces, dropVoidEnd_cons] at hparent
    by_cases hmore : dropVoidEnd pieces = []
    · -- one component, which is not the root
      rw [hmore, componentsOf_nil] at hkept
      rw [← hkept] at hpath
      have hfront : frontOf first ≠ .root := by
        simpa [hpath] using hroot
      have hrelative : isAbsolute path = false := by
        rw [← Bool.not_eq_true, habsolute]
        rintro rfl
        exact hfront rfl
      have hempty : parent = "" := by
        rw [hparent, if_pos hmore, hrelative]
        by_cases hvoid : isVoid first = true <;> simp [hvoid, dropVoidEnd]
      exact ⟨[], frontOf first, by simp, hfront, by rw [hpath, hempty]; rfl⟩
    · -- the last piece that counts goes, and void ones in front of it
      obtain ⟨init, last, hlast, hproper⟩ := exists_dropVoidEnd_eq hmore
      obtain ⟨c, hc⟩ := exists_componentOf hproper false
      have hone : componentsOf [last] = [c] := List.filterMap_cons_some hc
      have hslash : ∀ piece ∈ first :: init, '/' ∉ piece.toList := by
        intro piece hpiece
        apply not_mem_of_mem_splitText (s := path)
        rw [hpieces]
        rcases List.mem_cons.mp hpiece with rfl | hpiece
        · exact List.mem_cons_self
        · have hmem : piece ∈ dropVoidEnd pieces := hlast ▸ List.mem_append_left _ hpiece
          exact List.mem_cons_of_mem _ (mem_of_mem_dropVoidEnd hmem)
      rw [if_neg hmore, hlast, ← List.cons_append, List.dropLast_concat] at hparent
      obtain ⟨dots, hdots, hfront⟩ := exists_components_front habsolute hslash hparent
      refine ⟨dots, c, hdots, componentOf?_ne_root hc, ?_⟩
      rw [hpath, ← hkept, hlast, componentsOf_append, hone, ← hfront, List.cons_append]

end TextHarvest.Path
