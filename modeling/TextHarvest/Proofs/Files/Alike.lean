import Mathlib.Data.List.Infix
import TextHarvest.Files.Scan
import TextHarvest.Proofs.Files.Walk

/-!
# Paths and patterns that are read alike

The scan of a project and the test of a single file read the same options. A path of names comes to
the same for both. An included pattern is matched differently: the walk matches name by name, the
test matches the path as one text, in which a star runs over slashes.

A star as the whole last component of an included pattern is safe. It stands for one directory, and
the files below such a directory are those whose path matches as a text: there the star may run over
slashes, but a slash has to follow it. A star before another component is not safe: the walk looks
one directory deep for that component, the text matches at any depth.

Main results:

* `includesAlike_star` — a pattern that ends in a star is taken in the same way.
* `alike_of_plain` — options with names and stars are read alike for all files below their paths.
-/

namespace TextHarvest

open TextHarvest.Path (AreNames)

namespace Scan

/-! ## Options that both read alike -/

/-- Whether the path of a file matches an included pattern as one text. -/
def matchesText (names : Place) (inc : String) : Bool :=
  (Glob.parse? (dropSlashes inc ++ "/**/*")).any fun g =>
    g.isMatch (forPatterns ("/".intercalate names))

/-- Whether a directory on the way to a file matches an included pattern name by name. -/
def matchesNames (names : Place) (inc : String) : Bool :=
  ((Glob.pieces inc).mapM Glob.parse?).any fun gs => names.dropLast.inits.any (Glob.leads gs)

/-- An included path that is written plainly: a path of names, which ends in a slash only if it is
not the file itself, or a pattern that matches the file in both ways or in none. -/
def IncludesAlike (names : Place) (inc : String) : Prop :=
  if Glob.isPattern inc then
    Glob.Tidy inc ∧ matchesText names inc = matchesNames names inc
  else
    AreNames (Glob.pieces inc) ∧ (inc.toList.getLast? = some '/' → Glob.pieces inc ≠ names)

instance (names : Place) (inc : String) : Decidable (IncludesAlike names inc) :=
  inferInstanceAs (Decidable (if Glob.isPattern inc then
      Glob.Tidy inc ∧ matchesText names inc = matchesNames names inc
    else
      AreNames (Glob.pieces inc) ∧ (inc.toList.getLast? = some '/' → Glob.pieces inc ≠ names)))

/-- An excluded path that is written plainly: a pattern, or a relative path that does not begin with
the current directory. -/
def ExcludesAlike (excluded : String) : Prop :=
  Glob.isPattern excluded = true ∨
    Path.isAbsolute excluded = false ∧ (Path.splitText '/' excluded).head? ≠ some "."

instance (excluded : String) : Decidable (ExcludesAlike excluded) :=
  inferInstanceAs (Decidable (_ ∨ _))

/-- Options whose paths are written plainly, as far as one file is concerned. -/
structure Alike (o : Options) (names : Place) : Prop where
  included : ∀ inc ∈ o.includePaths, IncludesAlike names inc
  excluded : ∀ x ∈ o.excludedPaths, ExcludesAlike x

instance (o : Options) (names : Place) : Decidable (Alike o names) :=
  decidable_of_iff ((∀ inc ∈ o.includePaths, IncludesAlike names inc) ∧
      ∀ x ∈ o.excludedPaths, ExcludesAlike x)
    ⟨fun ⟨hi, hx⟩ => ⟨hi, hx⟩, fun ⟨hi, hx⟩ => ⟨hi, hx⟩⟩

end Scan

namespace Glob

/-! ## A star in a text -/

/-- A rest is tried here first, then at later places, and last at the end. -/
theorem tryAll_eq_hit {rest : List Char → Outcome} {afterSlash : Bool} {text : List Char} :
    tryAll rest afterSlash text = .hit ↔ rest text = .hit ∨ rest text = .miss ∧
      (scan rest afterSlash text = .hit ∨ scan rest afterSlash text = .miss ∧ rest [] = .hit) := by
  rw [tryAll]
  cases rest text <;> cases scan rest afterSlash text <;> simp

/-- A star alone matches every text. -/
theorem matchTokens_anySequence (text : List Char) : matchTokens [.anySequence] text = .hit := by
  have hscan : ∀ c cs, scan (matchTokens []) false (c :: cs) = .hit := by
    intro c cs
    induction cs generalizing c with
    | nil => rfl
    | cons d cs ih => exact ih d
  rw [matchTokens, tryAll_eq_hit]
  cases text with
  | nil => exact Or.inl rfl
  | cons c cs => exact Or.inr ⟨rfl, Or.inl (hscan c cs)⟩

/-- A slash and what may follow it. -/
theorem matchTokens_slash (c : Char) (cs : List Char) :
    matchTokens [.char '/', .anyComponents, .anySequence] (c :: cs) =
      if c = '/' then .hit else .miss := by
  have hrest : matchTokens [.anyComponents, .anySequence] cs = .hit := by
    rw [matchTokens, tryAll_eq_hit]
    exact Or.inl (matchTokens_anySequence cs)
  rw [matchTokens, hrest]
  simp

/-- Two components are told by a slash behind the first character. -/
theorem scan_slash (text : List Char) :
    scan (matchTokens [.char '/', .anyComponents, .anySequence]) false text = .hit ↔
      '/' ∈ text.tail := by
  induction text with
  | nil => simp [scan]
  | cons c cs ih =>
    rw [scan, List.tail_cons]
    cases cs with
    | nil => simp [matchTokens]
    | cons d cs =>
      rw [matchTokens_slash]
      -- at a slash the names behind it may match; at anything else the star goes on
      by_cases hd : d = '/'
      · simp [hd]
      · simp only [Bool.false_and, hd, if_false, Bool.false_eq_true]
        rw [ih, List.tail_cons, List.mem_cons]
        simp [Ne.symm hd]

/-- A star, a slash and whatever follows match every text with a slash in it. -/
theorem matchTokens_star (text : List Char) :
    matchTokens [.anySequence, .char '/', .anyComponents, .anySequence] text = .hit ↔
      '/' ∈ text := by
  rw [matchTokens, tryAll_eq_hit, scan_slash]
  cases text with
  | nil => simp [matchTokens]
  | cons c cs =>
    rw [matchTokens_slash]
    by_cases hc : c = '/'
    · simp [hc]
    · simp [hc, Ne.symm hc, matchTokens]

end Glob

/-! ## Texts of names -/

/-- Names with a slash behind each. -/
def Path.slashed (names : List String) : List Char :=
  names.flatMap fun name => name.toList ++ ['/']

/-- Names in front of others are written with a slash each. -/
theorem Path.toList_intercalate_append (front : List String) {rest : List String} (h : rest ≠ []) :
    ("/".intercalate (front ++ rest)).toList = slashed front ++ ("/".intercalate rest).toList := by
  induction front with
  | nil => rfl
  | cons name front ih =>
    rw [List.cons_append, String.intercalate_cons_of_ne_nil (by simp [h])]
    simp [slashed, ih]

/-- And read back as pieces. -/
theorem Path.splitText_slashed {front : List String} (h : AreNames front) (rest : List Char) :
    splitText '/' (String.ofList (slashed front ++ rest)) =
      front ++ splitText '/' (String.ofList rest) := by
  induction front with
  | nil => rfl
  | cons name front ih =>
    have hname := (h name List.mem_cons_self).slash_not_mem
    have htext : String.ofList (slashed (name :: front) ++ rest) =
        name ++ "/" ++ String.ofList (slashed front ++ rest) := by
      rw [← String.toList_inj]
      simp [slashed]
    rw [htext, splitText_slash, splitText_of_not_mem hname,
      ih fun n hn => h n (List.mem_cons_of_mem _ hn)]
    rfl

/-- A text with a slash has two pieces at least. -/
theorem Path.exists_splitText_of_mem {cs : List Char} (h : '/' ∈ cs) :
    ∃ first second more, splitText '/' (String.ofList cs) = first :: second :: more := by
  obtain ⟨a, b, rfl⟩ := List.append_of_mem h
  have htext : String.ofList (a ++ '/' :: b) = String.ofList a ++ "/" ++ String.ofList b := by
    rw [← String.toList_inj]
    simp
  rw [htext, splitText_slash]
  obtain ⟨first, pieces, hfirst⟩ :=
    List.exists_cons_of_ne_nil (splitText_ne_nil '/' (String.ofList a))
  obtain ⟨second, more, hsecond⟩ :=
    List.exists_cons_of_ne_nil (splitText_ne_nil '/' (String.ofList b))
  rw [hfirst, hsecond]
  -- the first slash of the text may stand in front of the one that was found
  cases pieces with
  | nil => exact ⟨first, second, more, rfl⟩
  | cons piece pieces => exact ⟨first, piece, pieces ++ second :: more, rfl⟩

/-- Names of which some come first and two more follow at least. -/
theorem Path.exists_slashed_iff {front names : List String} (hfront : AreNames front)
    (h : AreNames names) :
    (∃ rest, ("/".intercalate names).toList = slashed front ++ rest ∧ '/' ∈ rest) ↔
      ∃ first second more, names = front ++ first :: second :: more := by
  constructor
  · rintro ⟨rest, htext, hslash⟩
    obtain ⟨first, second, more, hrest⟩ := exists_splitText_of_mem hslash
    have hne : names ≠ [] := by
      rintro rfl
      simp at htext
      simp [htext.2] at hslash
    have hsplit := splitText_slashed hfront rest
    rw [← htext, String.ofList_toList, splitText_intercalate hne h.slash_not_mem, hrest] at hsplit
    exact ⟨first, second, more, hsplit⟩
  · rintro ⟨first, second, more, rfl⟩
    refine ⟨_, toList_intercalate_append front (by simp), ?_⟩
    simp [String.intercalate_cons_cons]

/-! ## The pattern that ends in a star -/

namespace Scan

/-- The pattern for the directories directly below some names. -/
def starBelow (front : List String) : String :=
  "/".intercalate (front ++ ["*"])

section Star

variable {front names : List String}

/-- The pattern is the names with a star behind them. -/
theorem toList_starBelow (front : List String) :
    (starBelow front).toList = Path.slashed front ++ ['*'] := by
  rw [starBelow, Path.toList_intercalate_append front (by simp)]
  simp

/-- A star makes a pattern. -/
theorem isPattern_starBelow (front : List String) : Glob.isPattern (starBelow front) = true := by
  simp [Glob.isPattern, toList_starBelow]

/-- Its pieces are the names and the star. -/
theorem pieces_starBelow (hfront : AreNames front) :
    Glob.pieces (starBelow front) = front ++ ["*"] := by
  have hslash : ∀ piece ∈ front ++ ["*"], '/' ∉ piece.toList := by
    intro piece hpiece
    rcases List.mem_append.mp hpiece with hpiece | hpiece
    · exact (hfront piece hpiece).slash_not_mem
    · rw [List.mem_singleton.mp hpiece]
      decide
  rw [starBelow, Glob.pieces_eq (Path.splitText_intercalate (by simp) hslash),
    if_neg (by decide)]

/-- It does not end in a slash. -/
theorem dropSlashes_starBelow (front : List String) :
    dropSlashes (starBelow front) = starBelow front := by
  rw [dropSlashes, toList_starBelow]
  have hstay : ((Path.slashed front ++ ['*']).reverse.dropWhile (· == '/')).reverse =
      Path.slashed front ++ ['*'] := by
    rw [List.reverse_append, List.reverse_singleton, List.singleton_append,
      List.dropWhile_cons_of_neg (by decide), List.reverse_cons, List.reverse_reverse]
  rw [hstay, ← toList_starBelow, String.ofList_toList]

/-- Plain names have no special signs. -/
theorem ne_special_of_mem_slashed (hplain : ∀ name ∈ front, Glob.isPattern name = false) :
    ∀ c ∈ Path.slashed front, c ≠ '*' ∧ c ≠ '?' ∧ c ≠ '[' := by
  intro c hc
  obtain ⟨name, hname, hc⟩ := List.mem_flatMap.mp hc
  rcases List.mem_append.mp hc with hc | hc
  · exact Glob.ne_special_of_not_isPattern (hplain name hname) c hc
  · rw [List.mem_singleton.mp hc]
    decide

/-- How the test reads the pattern. -/
theorem parse?_starBelow (hplain : ∀ name ∈ front, Glob.isPattern name = false) :
    Glob.parse? (starBelow front ++ "/**/*") =
      some ⟨(Path.slashed front).map GlobToken.char ++
        [.anySequence, .char '/', .anyComponents, .anySequence]⟩ := by
  have hchars : (starBelow front ++ "/**/*").toList =
      Path.slashed front ++ ['*', '/', '*', '*', '/', '*'] := by
    rw [String.toList_append, toList_starBelow]
    simp
  have hlength : (starBelow front ++ "/**/*").length + 1 = (Path.slashed front).length + 7 := by
    rw [← String.length_toList, hchars]
    simp
  rw [Glob.parse?, Glob.parse, hlength, hchars,
    Glob.readTokens_append (ne_special_of_mem_slashed hplain),
    Glob.readTokens_star _ _ _ _ (by decide), Glob.readTokens_char _ _ _ _ _ (by decide),
    Glob.readTokens_stars_slash _ _ _ _ (by decide), Glob.readTokens_star _ _ _ _ (by decide),
    Glob.readTokens_nil]
  simp [Glob.addStars, Except.map, Except.toOption]

/-- Without backslashes a path is matched as it is. -/
theorem forPatterns_of_not_mem {s : String} (h : '\\' ∉ s.toList) : forPatterns s = s := by
  have hsame : s.toList.map (fun c => if c == '\\' then '/' else c) = s.toList := by
    refine (List.map_congr_left ?_).trans (List.map_id _)
    intro c hc
    have hne : c ≠ '\\' := by
      rintro rfl
      exact h hc
    simp [hne]
  rw [forPatterns, hsame, String.ofList_toList]

/-- Joined names have backslashes only if a name has one. -/
theorem not_mem_intercalate (h : ∀ name ∈ names, '\\' ∉ name.toList) :
    '\\' ∉ ("/".intercalate names).toList := by
  induction names with
  | nil => simp
  | cons name names ih =>
    have hname := h name List.mem_cons_self
    have ih := ih fun n hn => h n (List.mem_cons_of_mem _ hn)
    cases names with
    | nil => simpa using hname
    | cons next names =>
      rw [String.intercalate_cons_cons, String.toList_append, String.toList_append,
        List.mem_append, List.mem_append, not_or, not_or]
      exact ⟨⟨hname, by decide⟩, ih⟩

/-- As a text, a path matches from two names below on. -/
theorem matchesText_starBelow (hfront : AreNames front)
    (hplain : ∀ name ∈ front, Glob.isPattern name = false) (h : AreNames names)
    (hback : ∀ name ∈ names, '\\' ∉ name.toList) :
    matchesText names (starBelow front) = true ↔
      ∃ first second more, names = front ++ first :: second :: more := by
  rw [matchesText, dropSlashes_starBelow, parse?_starBelow hplain, Option.any_some, Glob.isMatch,
    beq_iff_eq, forPatterns_of_not_mem (not_mem_intercalate hback), Glob.matchTokens_append,
    ← Path.exists_slashed_iff hfront h]
  simp only [Glob.matchTokens_star]

/-- As a walk, the pattern finds what is below directories one name down. -/
theorem matchesNames_starBelow (hfront : AreNames front)
    (hplain : ∀ name ∈ front, Glob.isPattern name = false) :
    matchesNames names (starBelow front) = true ↔
      ∃ first second more, names = front ++ first :: second :: more := by
  have hstar : (["*"] : List String).mapM Glob.parse? = some [⟨[.anySequence]⟩] := by decide
  have hleads : ∀ ds, Glob.leads [⟨[.anySequence]⟩] ds = true ↔ ∃ name, ds = [name] := by
    intro ds
    cases ds with
    | nil => simp [Glob.leads_nil_right]
    | cons name ds =>
      rw [Glob.leads_cons (by decide), Glob.isMatch, Glob.matchTokens_anySequence,
        Glob.leads_nil_left]
      simp
  rw [matchesNames, pieces_starBelow hfront, Glob.mapM_literal hplain, hstar, Option.map_some,
    Option.any_some, List.any_eq_true]
  simp only [List.mem_inits, Glob.leads_literals, hleads]
  constructor
  · rintro ⟨ds, ⟨tail, htail⟩, more, rfl, first, rfl⟩
    -- the last name of the file comes behind the directory
    obtain rfl | ⟨init, last, rfl⟩ := List.eq_nil_or_concat names
    · simp at htail
    · rw [List.concat_eq_append, List.dropLast_concat] at htail
      rw [List.concat_eq_append, ← htail]
      cases tail with
      | nil => exact ⟨first, last, [], by simp⟩
      | cons second tail => exact ⟨first, second, tail ++ [last], by simp⟩
  · rintro ⟨first, second, more, rfl⟩
    refine ⟨front ++ [first], ?_, [first], rfl, first, rfl⟩
    rw [List.dropLast_append_of_ne_nil (by simp), List.prefix_append_right_inj,
      List.dropLast_cons_cons, List.cons_prefix_cons]
    exact ⟨rfl, List.nil_prefix⟩

/-- A pattern that ends in a star is taken in the same way by the scan and by the test. -/
theorem includesAlike_star (hfront : AreNames front)
    (hplain : ∀ name ∈ front, Glob.isPattern name = false)
    (hdot : ∀ name ∈ front, name.toList.head? ≠ some '.') (h : AreNames names)
    (hback : ∀ name ∈ names, '\\' ∉ name.toList) : IncludesAlike names (starBelow front) := by
  rw [IncludesAlike, if_pos (isPattern_starBelow front)]
  refine ⟨?_, ?_⟩
  · rw [Glob.Tidy, pieces_starBelow hfront]
    intro piece hpiece
    -- the names in front are proper, and the star is no name
    rcases List.mem_append.mp hpiece with hpiece | hpiece
    · exact ⟨(hfront piece hpiece).ne_empty, hdot piece hpiece⟩
    · rw [List.mem_singleton.mp hpiece]
      decide
  · rw [Bool.eq_iff_iff, matchesText_starBelow hfront hplain h hback,
      matchesNames_starBelow hfront hplain]

end Star

/-- Included paths that mean the same to the scan and to the test of a file: a path of names other
than that of the file, and names with a star behind them. -/
inductive PlainlyIncluded (names : Place) : String → Prop
  | path {inc : String} (hliteral : Glob.isPattern inc = false)
      (hnames : AreNames (Glob.pieces inc)) (hother : Glob.pieces inc ≠ names) :
      PlainlyIncluded names inc
  | starBelow {front : List String} (hfront : AreNames front)
      (hplain : ∀ name ∈ front, Glob.isPattern name = false)
      (hdot : ∀ name ∈ front, name.toList.head? ≠ some '.') :
      PlainlyIncluded names (starBelow front)

/-- Options that include nothing else are read alike for a file whose names hold no backslash. -/
theorem alike_of_plain {o : Options} {names : Place}
    (hincluded : ∀ inc ∈ o.includePaths, PlainlyIncluded names inc)
    (hexcluded : ∀ x ∈ o.excludedPaths, ExcludesAlike x) (h : AreNames names)
    (hback : ∀ name ∈ names, '\\' ∉ name.toList) : Alike o names where
  included := by
    intro inc hinc
    cases hincluded inc hinc with
    | path hliteral hnames hother =>
      rw [IncludesAlike, if_neg (by simp [hliteral])]
      exact ⟨hnames, fun _ => hother⟩
    | starBelow hfront hplain hdot => exact includesAlike_star hfront hplain hdot h hback
  excluded := hexcluded

-- before another component the star of the text runs over slashes, the star of the walk does not
example : matchesText ["packages", "a", "b", "src", "x.ts"] "packages/*/src" = true ∧
    matchesNames ["packages", "a", "b", "src", "x.ts"] "packages/*/src" = false := by
  decide +kernel

end Scan

end TextHarvest
