import TextHarvest.Proofs.Files.Disk
import TextHarvest.Proofs.Locale.CutShort
import TextHarvest.Proofs.Locale.Update

/-!
# Cleaning drops stale keys and nothing else

A key of a locale file is stale when the record of the sources does not have it. Cleaning goes
through the languages one after another and writes a file without its stale keys where it has any.
The disk may refuse to write a file, or break off: then there is one issue, and the other languages
have their turns all the same.

A file without stale keys, which may be missing or broken too, is left alone, whichever language it
belongs to; the record of the sources is such a file. A file that was written has no stale keys any
more, nor has one whose writing broke off. So whenever a language finds stale keys in its file, the
file is as it was at first (`Cleans`), and a second cleaning has nothing to do.

* `cleanOneOn_cases` — all that the turn of a language can do.
* `cleans_foldl` — what the turns of some languages leave as it was.

Main result: `dropsStaleOnly_cleanOn`.
-/

namespace TextHarvest

namespace Locale

variable {disk : Disk} {o : Options} {root : String} {source : Catalog} {t u v : FileTree}
  {path lang : String}

/-! ## Stale keys -/

/-- The number of keys that are not in the record of the sources. -/
def staleCount (source c : Catalog) : Nat :=
  c.keys.countP (· ∉ source.keys)

/-- No stale keys are read from a file: it is missing, or it cannot be read, or the record of the
sources has all its keys. -/
def Fresh (source : Catalog) (t : FileTree) (path : String) : Prop :=
  ∀ c, read t path = .ok c → ∀ k ∈ c.keys, k ∈ source.keys

/-- No key is stale just when all are in the source. -/
theorem staleCount_eq_zero_iff {c : Catalog} :
    staleCount source c = 0 ↔ ∀ k ∈ c.keys, k ∈ source.keys := by
  simp [staleCount, List.countP_eq_zero]

/-- A key that is kept is one of the source. -/
theorem mem_keys_of_mem_keys_prune {c : Catalog} {k : String} (h : k ∈ (prune source c).keys) :
    k ∈ source.keys := by
  rw [keys_prune] at h
  simpa using (List.mem_filter.mp h).2

/-- What pruning takes away is counted. -/
theorem size_sub_size_prune (source c : Catalog) :
    c.size - (prune source c).size = staleCount source c := by
  have hcount := List.length_eq_countP_add_countP (· ∈ source.keys) (l := c.keys)
  rw [Catalog.size_eq_length_keys, Catalog.size_eq_length_keys, keys_prune, staleCount,
    ← List.countP_eq_length_filter]
  simp only [decide_eq_true_eq, decide_not] at hcount ⊢
  omega

/-! ## What is read -/

/-- A text spells a catalog when it is blank or an object; the path to it does not matter. -/
theorem decode_eq_ok_iff {path s : String} {c : Catalog} : decode path s = .ok c ↔
    (Text.isBlank s = true ∧ c = .empty) ∨ (Text.isBlank s = false ∧
      ∃ fields, Json.parse? s = some (.obj fields) ∧ c = ofFields fields) := by
  rw [decode]
  -- a blank text is the empty catalog; any other has to be an object
  split
  · rename_i hblank
    simp [hblank, eq_comm]
  · rename_i hblank
    rw [Bool.not_eq_true] at hblank
    split
    · rename_i hparse
      simp [hblank, hparse]
    · rename_i fields hparse
      simp [hblank, hparse, eq_comm]
    · rename_i json hobject hparse
      simpa [hblank, hparse] using fun fields heq _ => hobject fields heq

/-- A text is read just where a text file is. -/
theorem readText?_iff_lookup? {s : String} :
    t.readText? path = some s ↔ t.lookup? path = some (.file (.text s)) := by
  rw [FileTree.readText?]
  split
  · rename_i htext
    simp [htext]
  · rename_i hother
    simpa using hother s

/-- A locale file is read just when its text spells a catalog. -/
theorem read_eq_ok_iff {c : Catalog} : read t path = .ok c ↔
    ∃ s, t.lookup? path = some (.file (.text s)) ∧ decode path s = .ok c := by
  simp only [← readText?_iff_lookup?]
  rw [read]
  cases t.readText? path with
  | none => simp
  | some s => simp

/-- Paths to the same read the same. -/
theorem read_of_lookup?_eq {p : String} {c : Catalog} (h : u.lookup? p = t.lookup? path)
    (hread : read t path = .ok c) : read u p = .ok c := by
  obtain ⟨s, htext, hdecode⟩ := read_eq_ok_iff.mp hread
  exact read_eq_ok_iff.mpr ⟨s, h.trans htext, decode_eq_ok_iff.mpr (decode_eq_ok_iff.mp hdecode)⟩

/-- Where nothing has changed what was fresh is fresh. -/
theorem Fresh.of_lookup?_eq {p : String} (hfresh : Fresh source t path)
    (h : u.lookup? p = t.lookup? path) : Fresh source u p :=
  fun c hread => hfresh c (read_of_lookup?_eq h.symm hread)

/-- There is a record at a path when it leads to a text that is blank or an object. -/
def HasRecord (t : FileTree) (path : String) : Prop :=
  ∃ text, t.readText? path = some text ∧
    (Text.isBlank text = true ∨ ∃ fields, Json.parse? text = some (.obj fields))

/-- There is a record where one can be read. -/
theorem hasRecord_iff : HasRecord t path ↔ ∃ c, read t path = .ok c := by
  constructor
  · rintro ⟨text, htext, hspells⟩
    simp only [read, htext, decode_eq_ok_iff]
    cases hblank : Text.isBlank text with
    | true => exact ⟨.empty, Or.inl ⟨rfl, rfl⟩⟩
    | false =>
      obtain ⟨fields, hparse⟩ := hspells.resolve_left (by simp [hblank])
      exact ⟨ofFields fields, Or.inr ⟨rfl, fields, hparse, rfl⟩⟩
  · rintro ⟨c, hread⟩
    rw [read] at hread
    split at hread
    · cases hread
    · rename_i text htext
      refine ⟨text, htext, ?_⟩
      rcases decode_eq_ok_iff.mp hread with ⟨hblank, -⟩ | ⟨-, fields, hparse, -⟩
      · exact Or.inl hblank
      · exact Or.inr ⟨fields, hparse⟩

/-! ## One write -/

/-- What a file holds that was written to drop stale keys, or whose writing broke off: whatever is
read from it has no stale keys. -/
def HoldsFresh (source : Catalog) (content : FileContent) : Prop :=
  ∀ p s c, content = .text s → decode p s = .ok c → ∀ k ∈ c.keys, k ∈ source.keys

/-- A catalog without stale keys holds fresh keys only, however much of it is written. -/
theorem holdsFresh_of_begins {c : Catalog} {content : FileContent}
    (h : content.Begins (.text (encode (prune source c)))) : HoldsFresh source content := by
  rintro p s d rfl hread k hk
  cases h with
  | text hfront =>
    rcases eq_of_decode_beginning hfront hread with rfl | rfl
    · cases hk
    · exact mem_keys_of_mem_keys_prune hk

/-- A whole catalog without stale keys is fresh. -/
theorem holdsFresh_encode (source c : Catalog) :
    HoldsFresh source (.text (encode (prune source c))) :=
  holdsFresh_of_begins (.text List.prefix_rfl)

/-- A tree after the turn of a language: it is the same, or the file of the language, which had
stale keys, has none any more. -/
inductive Overwrites (source : Catalog) (path : String) (t : FileTree) : FileTree → Prop
  | same : Overwrites source path t t
  | written {f content : FileContent} (hstale : ¬Fresh source t path)
    (hfile : t.lookup? path = some (.file f)) (hcontent : HoldsFresh source content) :
    Overwrites source path t (t.set (Path.place path) (.file content))

/-- What is written to a file is there afterwards, or there is an error, and the file is as it was
or holds a beginning. -/
theorem writeOn_cases (hdisk : disk.Honest) {f : FileContent}
    (hfile : t.lookup? path = some (.file f)) (c : Catalog) :
    writeOn disk t path c = (t.set (Path.place path) (.file (.text (encode c))), none) ∨
      (∃ e, writeOn disk t path c = (t, some e)) ∨
      ∃ e part, part.Begins (.text (encode c)) ∧
        writeOn disk t path c = (t.set (Path.place path) (.file part), some e) := by
  rw [writeOn, hdisk.createDirs_eq (FileTree.isDirectory_parent hfile)]
  dsimp only
  have hanswer := hdisk.answers hfile (.text (encode c))
  generalize disk.write t path (.text (encode c)) = answer at hanswer
  cases hanswer with
  | written => exact Or.inl rfl
  | refused => exact Or.inr (Or.inl ⟨_, rfl⟩)
  | brokenOff hpart => exact Or.inr (Or.inr ⟨_, _, hpart, rfl⟩)

/-- One write changes the file at its path, to a fresh one or a part of one. -/
theorem overwrites_writeOn (hdisk : disk.Honest) {c : Catalog} (hread : read t path = .ok c)
    (hstale : ¬Fresh source t path) :
    Overwrites source path t (writeOn disk t path (prune source c)).1 := by
  obtain ⟨s, hfile, -⟩ := read_eq_ok_iff.mp hread
  rcases writeOn_cases hdisk hfile (prune source c) with
    hdone | ⟨e, hdone⟩ | ⟨e, part, hpart, hdone⟩
  · rw [hdone]
    exact .written hstale hfile (holdsFresh_encode source c)
  · rw [hdone]
    exact .same
  · rw [hdone]
    exact .written hstale hfile (holdsFresh_of_begins hpart)

/-- What was written without an error is read back. -/
theorem read_of_writeOn (hdisk : disk.Honest) {c d : Catalog} (hread : read t path = .ok c)
    (hwrite : writeOn disk t path d = (u, none)) : read u path = .ok d := by
  obtain ⟨s, hfile, -⟩ := read_eq_ok_iff.mp hread
  obtain ⟨hplace, hentry, hslash⟩ := FileTree.exists_of_lookup?_file hfile
  rcases writeOn_cases hdisk hfile d with hdone | ⟨e, hdone⟩ | ⟨e, part, -, hdone⟩
  · rw [hdone] at hwrite
    obtain rfl := (Prod.mk.inj hwrite).1
    refine read_eq_ok_iff.mpr ⟨encode d, ?_, decode_encode path d⟩
    rw [FileTree.lookup?_set_file hentry, if_pos ⟨hplace, hslash⟩]
  · rw [hdone] at hwrite
    cases hwrite
  · rw [hdone] at hwrite
    cases hwrite

/-- A file that was written without its stale keys has none. -/
theorem fresh_of_writeOn (hdisk : disk.Honest) {c : Catalog} (hread : read t path = .ok c)
    (hwrite : writeOn disk t path (prune source c) = (u, none)) : Fresh source u path := by
  intro d hd k hk
  rw [read_of_writeOn hdisk hread hwrite] at hd
  obtain rfl := Except.ok.inj hd
  exact mem_keys_of_mem_keys_prune hk

/-! ## What stays -/

/-- What cleaning leaves as it was: all files without stale keys, and those with stale keys that
still have any. -/
structure Cleans (source : Catalog) (t u : FileTree) : Prop where
  fresh_kept : ∀ p, Fresh source t p → u.lookup? p = t.lookup? p
  kept_or_fresh : ∀ p, u.lookup? p = t.lookup? p ∨ Fresh source u p

/-- To clean nothing. -/
theorem Cleans.refl (source : Catalog) (t : FileTree) : Cleans source t t :=
  ⟨fun _ _ => rfl, fun _ => Or.inl rfl⟩

/-- What is fresh stays fresh. -/
theorem Cleans.fresh (h : Cleans source t u) {p : String} (hp : Fresh source t p) :
    Fresh source u p :=
  hp.of_lookup?_eq (h.fresh_kept p hp)

/-- To clean one file after the other. -/
theorem Cleans.trans (h : Cleans source t u) (h' : Cleans source u v) : Cleans source t v := by
  constructor
  case fresh_kept =>
    intro p hp
    rw [h'.fresh_kept p (h.fresh hp), h.fresh_kept p hp]
  case kept_or_fresh =>
    intro p
    rcases h'.kept_or_fresh p with hkept | hfresh
    · rw [hkept]
      exact (h.kept_or_fresh p).imp_right h'.fresh
    · exact Or.inr hfresh

/-- A write of a turn cleans. -/
theorem Overwrites.cleans (h : Overwrites source path t u) : Cleans source t u := by
  cases h with
  | same => exact .refl source t
  | @written f content hstale hfile hcontent =>
    obtain ⟨hplace, hentry, -⟩ := FileTree.exists_of_lookup?_file hfile
    have hlookup := FileTree.lookup?_set_file hentry content
    constructor
    case fresh_kept =>
      intro p hp
      rw [hlookup]
      split
      · -- a path to the same file reads the same stale keys
        rename_i hleads
        refine absurd (hp.of_lookup?_eq ?_) hstale
        rw [hfile, FileTree.lookup?, hleads.1, Option.bind_some, hentry]
        simp [hleads.2]
      · rfl
    case kept_or_fresh =>
      intro p
      rw [hlookup]
      split
      · rename_i hleads
        refine Or.inr fun c hread => ?_
        obtain ⟨s, htext, hdecode⟩ := read_eq_ok_iff.mp hread
        rw [hlookup, if_pos hleads] at htext
        simp only [Option.some.injEq, FileEntry.file.injEq] at htext
        exact hcontent p s c htext hdecode
      · exact Or.inl rfl

/-- At other places everything is as it was. -/
theorem Overwrites.lookup?_eq (h : Overwrites source path t u) {p : String}
    (hp : Path.place p ≠ Path.place path) : u.lookup? p = t.lookup? p := by
  cases h with
  | same => rfl
  | written hstale hfile hcontent =>
    obtain ⟨-, hentry, -⟩ := FileTree.exists_of_lookup?_file hfile
    rw [FileTree.lookup?_set_file hentry, if_neg]
    rintro ⟨hplace, -⟩
    exact hp (FileTree.place?_eq_place hplace).symm

/-! ## The turn of a language -/

/-- Where a file has no stale keys, its language does nothing. -/
theorem cleanOneOn_of_fresh {s : FileTree × CleanReport}
    (h : Fresh source s.1 (o.localePath root lang)) :
    cleanOneOn disk o root source s lang = s := by
  obtain ⟨t, report⟩ := s
  simp only [cleanOneOn, size_sub_size_prune]
  split
  · rw [if_pos]
    rw [staleCount_eq_zero_iff, readOrEmpty]
    split
    · rename_i c hread
      exact h c hread
    · simp [Catalog.empty, Catalog.keys]
  · rfl

/-- All that the turn of a language can do: nothing, or write its file without the stale keys and
report how many they were, or report that it could not be written. -/
theorem cleanOneOn_cases (disk : Disk) (o : Options) (root : String) (source : Catalog)
    (s : FileTree × CleanReport) (lang : String) :
    (Fresh source s.1 (o.localePath root lang) ∧ cleanOneOn disk o root source s lang = s) ∨
    ∃ c, read s.1 (o.localePath root lang) = .ok c ∧ 0 < staleCount source c ∧
      ((∃ u, writeOn disk s.1 (o.localePath root lang) (prune source c) = (u, none) ∧
        cleanOneOn disk o root source s lang = (u, { s.2 with pruned := s.2.pruned ++
          [⟨lang, o.localePath root lang, staleCount source c⟩] })) ∨
      ∃ u e, writeOn disk s.1 (o.localePath root lang) (prune source c) = (u, some e) ∧
        cleanOneOn disk o root source s lang = (u, { s.2 with issues := s.2.issues ++
          [.persistence (o.localePath root lang) (some lang) e.report] })) := by
  by_cases hfresh : Fresh source s.1 (o.localePath root lang)
  · exact Or.inl ⟨hfresh, cleanOneOn_of_fresh hfresh⟩
  · simp only [Fresh, not_forall] at hfresh
    obtain ⟨c, hread, k, hk, hstale⟩ := hfresh
    have hcount : staleCount source c ≠ 0 := fun hzero =>
      hstale (staleCount_eq_zero_iff.mp hzero k hk)
    have hexists : s.1.pathExists (o.localePath root lang) = true := by
      obtain ⟨text, htext, -⟩ := read_eq_ok_iff.mp hread
      rw [FileTree.pathExists, htext]
      rfl
    refine Or.inr ⟨c, hread, Nat.pos_of_ne_zero hcount, ?_⟩
    -- something is stale, so what is left to say is whether the file could be written
    obtain ⟨t, report⟩ := s
    simp only [cleanOneOn, hexists, if_true, readOrEmpty, hread, size_sub_size_prune, if_neg hcount]
    generalize writeOn disk t (o.localePath root lang) (prune source c) = result
    obtain ⟨u, _ | e⟩ := result
    · exact Or.inl ⟨u, rfl, rfl⟩
    · exact Or.inr ⟨u, e, rfl, rfl⟩

/-- A file with stale keys is not fresh. -/
theorem not_fresh_of_staleCount {c : Catalog} (hread : read t path = .ok c)
    (hstale : 0 < staleCount source c) : ¬Fresh source t path := by
  intro hfresh
  rw [staleCount_eq_zero_iff.mpr (hfresh c hread)] at hstale
  exact Nat.lt_irrefl 0 hstale

/-- A turn changes at most the file of its language. -/
theorem overwrites_cleanOneOn (hdisk : disk.Honest) (s : FileTree × CleanReport) (lang : String) :
    Overwrites source (o.localePath root lang) s.1 (cleanOneOn disk o root source s lang).1 := by
  rcases cleanOneOn_cases disk o root source s lang with ⟨-, hsame⟩ | ⟨c, hread, hstale, hturn⟩
  · rw [hsame]
    exact .same
  · have hover := overwrites_writeOn hdisk hread (not_fresh_of_staleCount hread hstale)
    rcases hturn with ⟨u, hwrite, hturn⟩ | ⟨u, e, hwrite, hturn⟩
    · rw [hwrite] at hover
      rw [hturn]
      exact hover
    · rw [hwrite] at hover
      rw [hturn]
      exact hover

/-! ## The turns of some languages -/

/-- Any number of turns cleans. -/
theorem cleans_foldl (hdisk : disk.Honest) (langs : List String) (s : FileTree × CleanReport) :
    Cleans source s.1 (langs.foldl (cleanOneOn disk o root source) s).1 := by
  induction langs generalizing s with
  | nil => exact .refl source s.1
  | cons lang langs ih =>
    rw [List.foldl_cons]
    exact (overwrites_cleanOneOn hdisk s lang).cleans.trans (ih _)

/-- Files that belong to none of some languages are left alone by them. -/
theorem lookup?_foldl (hdisk : disk.Honest) {langs : List String} {p : String}
    (hp : ∀ lang ∈ langs, Path.place p ≠ Path.place (o.localePath root lang))
    (s : FileTree × CleanReport) :
    (langs.foldl (cleanOneOn disk o root source) s).1.lookup? p = s.1.lookup? p := by
  induction langs generalizing s with
  | nil => rfl
  | cons lang langs ih =>
    rw [List.foldl_cons, ih fun l hl => hp l (List.mem_cons_of_mem _ hl)]
    exact (overwrites_cleanOneOn hdisk s lang).lookup?_eq (hp lang List.mem_cons_self)

/-- A turn adds issues behind those that are there. -/
theorem issues_cleanOneOn (s : FileTree × CleanReport) (lang : String) :
    s.2.issues <+: (cleanOneOn disk o root source s lang).2.issues := by
  rcases cleanOneOn_cases disk o root source s lang with ⟨-, hsame⟩ | ⟨c, -, -, hturn⟩
  · exact ⟨[], by rw [hsame, List.append_nil]⟩
  · rcases hturn with ⟨u, -, hturn⟩ | ⟨u, e, -, hturn⟩
    · exact ⟨[], by rw [hturn, List.append_nil]⟩
    · exact ⟨[_], by rw [hturn]⟩

/-- So do any number of turns. -/
theorem issues_foldl (langs : List String) (s : FileTree × CleanReport) :
    s.2.issues <+: (langs.foldl (cleanOneOn disk o root source) s).2.issues := by
  induction langs generalizing s with
  | nil => exact List.prefix_rfl
  | cons lang langs ih =>
    rw [List.foldl_cons]
    exact (issues_cleanOneOn s lang).trans (ih _)

/-- A language without an issue leaves its file without stale keys. -/
theorem fresh_cleanOneOn (hdisk : disk.Honest) {s : FileTree × CleanReport}
    (h : (cleanOneOn disk o root source s lang).2.issues = s.2.issues) :
    Fresh source (cleanOneOn disk o root source s lang).1 (o.localePath root lang) := by
  rcases cleanOneOn_cases disk o root source s lang with ⟨hfresh, hsame⟩ | ⟨c, hread, -, hturn⟩
  · rw [hsame]
    exact hfresh
  · rcases hturn with ⟨u, hwrite, hturn⟩ | ⟨u, e, -, hturn⟩
    · rw [hturn]
      exact fresh_of_writeOn hdisk hread hwrite
    · rw [hturn] at h
      simp at h

/-- When there is no issue, no file of a language has stale keys any more. -/
theorem fresh_foldl (hdisk : disk.Honest) {langs : List String} {s : FileTree × CleanReport}
    (h : (langs.foldl (cleanOneOn disk o root source) s).2.issues = s.2.issues) :
    ∀ lang ∈ langs,
      Fresh source (langs.foldl (cleanOneOn disk o root source) s).1 (o.localePath root lang) := by
  induction langs generalizing s with
  | nil => simp
  | cons first langs ih =>
    rw [List.foldl_cons] at h ⊢
    -- neither the first language nor those behind it have an issue
    have hfirst : (cleanOneOn disk o root source s first).2.issues = s.2.issues := by
      have hmore : (cleanOneOn disk o root source s first).2.issues <+:
          (langs.foldl (cleanOneOn disk o root source)
            (cleanOneOn disk o root source s first)).2.issues := issues_foldl langs _
      rw [h] at hmore
      exact hmore.eq_of_length_le (issues_cleanOneOn s first).length_le
    have hown := fresh_cleanOneOn hdisk hfirst
    generalize cleanOneOn disk o root source s first = s' at h hfirst hown
    rw [← hfirst] at h
    intro lang hlang
    rcases List.mem_cons.mp hlang with rfl | hlang
    · exact (cleans_foldl hdisk langs s').fresh hown
    · exact ih h lang hlang

/-- Where no file has stale keys, nothing is done. -/
theorem foldl_of_fresh {langs : List String} {s : FileTree × CleanReport}
    (h : ∀ lang ∈ langs, Fresh source s.1 (o.localePath root lang)) :
    langs.foldl (cleanOneOn disk o root source) s = s := by
  induction langs with
  | nil => rfl
  | cons lang langs ih =>
    rw [List.foldl_cons, cleanOneOn_of_fresh (h lang List.mem_cons_self)]
    exact ih fun l hl => h l (List.mem_cons_of_mem _ hl)

/-! ## A whole cleaning -/

/-- The files and the report when some languages have had their turns. -/
def afterTurns (disk : Disk) (t : FileTree) (root : String) (o : Options) (source : Catalog)
    (langs : List String) : FileTree × CleanReport :=
  langs.foldl (cleanOneOn disk o root source) (t, {})

/-- One more turn at the end. -/
theorem afterTurns_concat (before : List String) :
    afterTurns disk t root o source (before ++ [lang]) =
      cleanOneOn disk o root source (afterTurns disk t root o source before) lang := by
  rw [afterTurns, List.foldl_concat, afterTurns]

/-- A turn in the middle, and those behind it. -/
theorem afterTurns_cons (before after : List String) :
    afterTurns disk t root o source (before ++ lang :: after) =
      after.foldl (cleanOneOn disk o root source)
        (afterTurns disk t root o source (before ++ [lang])) := by
  rw [afterTurns_concat, afterTurns, List.foldl_append, List.foldl_cons, afterTurns]

/-- The turns of some languages clean. -/
theorem cleans_afterTurns (hdisk : disk.Honest) (langs : List String) :
    Cleans source t (afterTurns disk t root o source langs).1 := by
  rw [afterTurns]
  exact cleans_foldl hdisk langs (t, {})

/-- What the turn of a language does to the files and the report, when the files were `t` at first
and are `u` in the end. -/
inductive Turn (disk : Disk) (source : Catalog) (t u : FileTree) (lang path : String)
    (shared : Prop) : FileTree × CleanReport → FileTree × CleanReport → Prop
  /-- Nothing is done where there are no stale keys, be it that there were none at first, or that a
  language before this one has the same file. -/
  | left {s : FileTree × CleanReport} (fresh : Fresh source s.1 path)
    (why : Fresh source t path ∨ shared) : Turn disk source t u lang path shared s s
  | pruned {s : FileTree × CleanReport} {v : FileTree} {c : Catalog} (was : read t path = .ok c)
    (stale : 0 < staleCount source c)
    (wrote : writeOn disk s.1 path (prune source c) = (v, none))
    (holds : ∃ d, read u path = .ok d ∧ d.entries = c.entries.filter (·.1 ∈ source.keys)) :
    Turn disk source t u lang path shared s
      (v, { s.2 with pruned := s.2.pruned ++ [⟨lang, path, staleCount source c⟩] })
  | failed {s : FileTree × CleanReport} {v : FileTree} {c : Catalog} {e : StoreError}
    (was : read t path = .ok c) (stale : 0 < staleCount source c)
    (failed : writeOn disk s.1 path (prune source c) = (v, some e)) :
    Turn disk source t u lang path shared s
      (v, { s.2 with issues := s.2.issues ++ [.persistence path (some lang) e.report] })

/-- What cleaning does by a record of the sources: the files and the report in the end. -/
structure Cleaned (disk : Disk) (t : FileTree) (root : String) (o : Options) (source : Catalog)
    (u : FileTree) (report : CleanReport) : Prop where
  source_kept : u.lookup? (o.localePath root o.fromLang) = t.lookup? (o.localePath root o.fromLang)
  fresh_kept : ∀ path, Fresh source t path → u.lookup? path = t.lookup? path
  others_kept : ∀ path,
    (∀ lang ∈ o.targetLangs, Path.place path ≠ Path.place (o.localePath root lang)) →
      u.lookup? path = t.lookup? path
  turns : ∀ before lang after, o.targetLangs = before ++ lang :: after →
    Turn disk source t u lang (o.localePath root lang)
      (∃ l ∈ before, Path.place (o.localePath root l) = Path.place (o.localePath root lang))
      (afterTurns disk t root o source before) (afterTurns disk t root o source (before ++ [lang]))
  /-- What the last turn leaves is what is left in the end; before the first one, nothing is
  reported. -/
  all_turns : afterTurns disk t root o source o.targetLangs = (u, report)
  again : report.issues = [] → ∀ disk' remark, cleanOn disk' remark u root o = (u, {})

/-- Cleaning drops stale keys and nothing else: nothing without a record of the sources, and by a
record what it does not have. -/
structure DropsStaleOnly (disk : Disk) (t : FileTree) (root : String) (o : Options)
    (u : FileTree) (report : CleanReport) : Prop where
  no_record : ¬HasRecord t (o.localePath root o.fromLang) → u = t ∧ report.pruned = [] ∧
    ∃ message, report.issues =
      [.persistence (o.localePath root o.fromLang) (some o.fromLang) message]
  record : HasRecord t (o.localePath root o.fromLang) →
    ∃ source, read t (o.localePath root o.fromLang) = .ok source ∧
      Cleaned disk t root o source u report

/-- A language that shares its file with none before it finds it as it was at first. -/
theorem lookup?_afterTurns (hdisk : disk.Honest) {before : List String}
    (hunshared : ∀ l ∈ before,
      Path.place (o.localePath root l) ≠ Path.place (o.localePath root lang)) :
    (afterTurns disk t root o source before).1.lookup? (o.localePath root lang) =
      t.lookup? (o.localePath root lang) := by
  rw [afterTurns]
  exact lookup?_foldl hdisk (fun l hl => Ne.symm (hunshared l hl)) (t, {})

/-- What was written without stale keys stays to the end. -/
theorem read_foldl_of_writeOn (hdisk : disk.Honest) {c : Catalog} (hread : read t path = .ok c)
    (hwrite : writeOn disk t path (prune source c) = (u, none)) (after : List String)
    (report : CleanReport) :
    read (after.foldl (cleanOneOn disk o root source) (u, report)).1 path =
      .ok (prune source c) := by
  have hcleans : Cleans source u (after.foldl (cleanOneOn disk o root source) (u, report)).1 :=
    cleans_foldl hdisk after (u, report)
  have hkept := hcleans.fresh_kept path (fresh_of_writeOn hdisk hread hwrite)
  exact read_of_lookup?_eq hkept (read_of_writeOn hdisk hread hwrite)

/-- What a turn comes to, among all turns. -/
theorem turn_afterTurns (hdisk : disk.Honest) {before after : List String}
    (htargets : o.targetLangs = before ++ lang :: after) :
    Turn disk source t (afterTurns disk t root o source o.targetLangs).1 lang
      (o.localePath root lang)
      (∃ l ∈ before, Path.place (o.localePath root l) = Path.place (o.localePath root lang))
      (afterTurns disk t root o source before)
      (afterTurns disk t root o source (before ++ [lang])) := by
  have hbefore : Cleans source t (afterTurns disk t root o source before).1 :=
    cleans_afterTurns hdisk before
  have hunshared (h : ∀ l ∈ before,
      Path.place (o.localePath root l) ≠ Path.place (o.localePath root lang)) :
      (afterTurns disk t root o source before).1.lookup? (o.localePath root lang) =
        t.lookup? (o.localePath root lang) :=
    lookup?_afterTurns hdisk h
  rw [htargets, afterTurns_cons, afterTurns_concat]
  generalize afterTurns disk t root o source before = s at hbefore hunshared
  -- a turn with nothing to do leaves the tree alone
  rcases cleanOneOn_cases disk o root source s lang with ⟨hfresh, hsame⟩ | ⟨c, hread, hstale, hturn⟩
  · rw [hsame]
    refine .left hfresh ?_
    by_cases hshared : ∃ l ∈ before,
        Path.place (o.localePath root l) = Path.place (o.localePath root lang)
    · exact Or.inr hshared
    · simp only [not_exists, not_and] at hshared
      exact Or.inl (hfresh.of_lookup?_eq (hunshared hshared).symm)
  · -- a file that has stale keys now is as it was at first
    have hkept := (hbefore.kept_or_fresh (o.localePath root lang)).resolve_right
      (not_fresh_of_staleCount hread hstale)
    have hwas := read_of_lookup?_eq hkept.symm hread
    rcases hturn with ⟨v, hwrite, hturn⟩ | ⟨v, e, hwrite, hturn⟩
    · rw [hturn]
      exact .pruned hwas hstale hwrite
        ⟨prune source c, read_foldl_of_writeOn hdisk hread hwrite after _, entries_prune source c⟩
    · rw [hturn]
      exact .failed hwas hstale hwrite

/-- The record that is read is the one of the run. -/
theorem recordOf_of_read (hread : read t path = .ok source) : recordOf t path = .ok source := by
  obtain ⟨text, htext, -⟩ := read_eq_ok_iff.mp hread
  rw [recordOf, FileTree.pathExists, htext]
  exact hread

/-- By a record of the sources, every language has its turn. -/
theorem cleanOn_of_read (hread : read t (o.localePath root o.fromLang) = .ok source)
    (remark : String → String) :
    cleanOn disk remark t root o = afterTurns disk t root o source o.targetLangs := by
  rw [cleanOn_eq, recordOf_of_read hread]
  rfl

/-- A cleaning is the turns of its languages. -/
theorem cleaned_cleanOn (hdisk : disk.Honest) (remark : String → String)
    (hread : read t (o.localePath root o.fromLang) = .ok source) :
    Cleaned disk t root o source (cleanOn disk remark t root o).1
      (cleanOn disk remark t root o).2 := by
  have hsource : Fresh source t (o.localePath root o.fromLang) := by
    intro c hc k hk
    rw [hread] at hc
    obtain rfl := Except.ok.inj hc
    exact hk
  -- no turn adds a key to a file, so what is fresh before the turns is fresh behind them
  have hcleans : Cleans source t (afterTurns disk t root o source o.targetLangs).1 :=
    cleans_afterTurns hdisk o.targetLangs
  rw [cleanOn_of_read hread]
  constructor
  case source_kept => exact hcleans.fresh_kept _ hsource
  case fresh_kept => exact hcleans.fresh_kept
  case others_kept =>
    intro p hp
    rw [afterTurns]
    exact lookup?_foldl hdisk hp (t, {})
  case turns =>
    intro before lang after htargets
    exact turn_afterTurns hdisk htargets
  case all_turns => rfl
  case again =>
    intro hissues disk' remark'
    -- without issues every file is fresh by now, so another cleaning finds nothing to do
    have hagain := read_of_lookup?_eq (hcleans.fresh_kept _ hsource) hread
    have hfresh : ∀ lang ∈ o.targetLangs, Fresh source
        (afterTurns disk t root o source o.targetLangs).1 (o.localePath root lang) := by
      rw [afterTurns] at hissues ⊢
      exact fresh_foldl hdisk hissues
    rw [cleanOn_of_read hagain, afterTurns]
    exact foldl_of_fresh hfresh

/-- Whatever the files, the options and the disk, cleaning drops stale keys and nothing else. -/
theorem dropsStaleOnly_cleanOn (hdisk : disk.Honest) (remark : String → String) (t : FileTree)
    (root : String) (o : Options) :
    DropsStaleOnly disk t root o (cleanOn disk remark t root o).1
      (cleanOn disk remark t root o).2 := by
  constructor
  case no_record =>
    intro hnone
    rw [cleanOn_eq]
    cases hrecord : recordOf t (o.localePath root o.fromLang) with
    | error e => exact ⟨rfl, rfl, e.report remark, rfl⟩
    | ok source =>
      -- a record would have been read from the file
      refine absurd (hasRecord_iff.mpr ⟨source, ?_⟩) hnone
      rw [recordOf] at hrecord
      split at hrecord
      · exact hrecord
      · cases hrecord
  case record =>
    intro hrecord
    obtain ⟨source, hread⟩ := hasRecord_iff.mp hrecord
    exact ⟨source, hread, cleaned_cleanOn hdisk remark hread⟩

/-- A record of the sources and two files with stale keys. -/
def staleFiles : FileTree :=
  ⟨[(["i18n"], .directory),
    (["i18n", "zh-cn.json"], .file (.text "\x7b\x22a\x22: \x22甲\x22, \x22b\x22: \x22乙\x22\x7d")),
    (["i18n", "en.json"], .file (.text "\x7b\x22z\x22: \x22Z\x22, \x22a\x22: \x22A\x22\x7d")),
    (["i18n", "fr.json"], .file (.text
      "\x7b\x22b\x22: \x22B\x22, \x22z\x22: \x22Z\x22, \x22n\x22: 1, \x22a\x22: \x22A\x22\x7d"))]⟩

/-- A language comes twice, and that of the sources is among them. -/
def staleOptions : Options :=
  { targetLangs := ["en", "fr", "zh-cn", "en"], outputPath := "i18n" }

/-- The file that may not be written is reported at every turn, and the next one is cleaned. -/
theorem dropsStaleOnly_cleanOn_guarding :
    DropsStaleOnly (.guarding ["i18n", "en.json"]) staleFiles "/" staleOptions
        (cleanOn (.guarding ["i18n", "en.json"]) id staleFiles "/" staleOptions).1
        (cleanOn (.guarding ["i18n", "en.json"]) id staleFiles "/" staleOptions).2 ∧
      (cleanOn (.guarding ["i18n", "en.json"]) id staleFiles "/" staleOptions).2.pruned =
        [⟨"fr", "/i18n/fr.json", 1⟩] ∧
      (cleanOn (.guarding ["i18n", "en.json"]) id staleFiles "/" staleOptions).2.issues =
        [.persistence "/i18n/en.json" (some "en")
            "Failed to write file: /i18n/en.json: Permission denied (os error 13)",
          .persistence "/i18n/en.json" (some "en")
            "Failed to write file: /i18n/en.json: Permission denied (os error 13)"] ∧
      (readOrEmpty (cleanOn (.guarding ["i18n", "en.json"]) id staleFiles "/" staleOptions).1
        "/i18n/fr.json").entries = [("b", "B"), ("a", "A")] :=
  ⟨dropsStaleOnly_cleanOn (Disk.honest_guarding _) _ _ _ _, by decide +kernel⟩

end Locale

end TextHarvest
