import TextHarvest.Proofs.Except
import TextHarvest.Proofs.Harvest.Places
import TextHarvest.Proofs.Harvest.Steps
import TextHarvest.Proofs.Text.Blank
import TextHarvest.Harvest.Script

/-!
# Which literals are extracted

A literal of a script is extracted when a walk records its text as found and puts something else in
its place. Which literals are extracted is said here without the walk: by what a literal says, and
by the steps that lead to it from the root of the script.

Main result:

* `decides_display` — a walk extracts the display literals that are not the identifier or the
  message of a wrapper element, and leaves all other literals alone; the constant argument of a
  lookup goes by a rule of its own.
-/

namespace TextHarvest

namespace Script

/-! ## Literals -/

/-- A literal of a script: a string, a plain key, the string of an attribute, the text between the
tags of an element, or a chunk of a template, which may be a tagged one. -/
inductive Literal where
  | string (value : String) (span : Span)
  | key (value : String) (span : Span)
  | attribute (value : String) (span : Span)
  | text (span : Span)
  | chunk (chunk : Chunk) (cooked : String) (tagged : Bool)
  deriving DecidableEq, Repr

namespace Literal

/-- What a literal says, without the blanks at its ends. The text of an element is also collapsed,
and its references are decoded. -/
def wording (source : List Char) : Literal → String
  | .string value _ => Text.trim value
  | .key value _ => Text.trim value
  | .attribute value _ => Text.trim value
  | .text span =>
    Text.decodeEntities (Text.collapse (String.ofList ((Chars.slice? source span).getD [])))
  | .chunk _ cooked _ => Text.trim cooked

/-- The kind of place that a literal is recorded with. -/
def surface : Literal → Surface
  | .text _ => .elementText
  | .chunk .. => .templateSegment
  | _ => .stringLiteral

/-- The range that is to be replaced. -/
def range? (source : List Char) : Literal → Option Span
  | .string _ span => some span
  | .key _ span => some span
  | .attribute _ span => some span
  | .text span =>
    ((Chars.slice? source span).bind Chars.trimmedSpan?).map fun inner => inner.shift span.start
  | .chunk c cooked _ =>
    (Harvest.writtenSpan? c.raw.toList cooked.toList).map fun inner => inner.shift c.span.start

/-- The ends of what a chunk says can be found in the way it is written. -/
def hasEdges : Literal → Bool
  | .chunk c cooked _ => (Harvest.writtenSpan? c.raw.toList cooked.toList).isSome
  | _ => true

/-- Neither a plain key nor a chunk of a tagged template. -/
def isValue : Literal → Bool
  | .key .. => false
  | .chunk _ _ tagged => !tagged
  | _ => true

end Literal

/-- The literal that a node is, or that one of its chunks is. -/
def Tree.literalIn? : Tree → Option Nat → Option Literal
  | .node (.strLit (some value)) span _, none => some (.string value span)
  | .node (.keyStr (some value)) span _, none => some (.key value span)
  | .node (.markupString value) span _, none => some (.attribute value span)
  | .node .markupText span _, none => some (.text span)
  | .node (.template chunks) _ _, some i =>
    chunks[i]?.bind fun c => c.cooked.map fun cooked => .chunk c cooked false
  | .node (.tagged chunks) _ _, some i =>
    chunks[i]?.bind fun c => c.cooked.map fun cooked => .chunk c cooked true
  | _, _ => none

/-- All literals that there are in a node. -/
inductive LiteralIn : Tree → Option Nat → Literal → Prop
  | string {value : String} {span : Span} {children : List Tree} :
      LiteralIn (.node (.strLit (some value)) span children) none (.string value span)
  | key {value : String} {span : Span} {children : List Tree} :
      LiteralIn (.node (.keyStr (some value)) span children) none (.key value span)
  | «attribute» {value : String} {span : Span} {children : List Tree} :
      LiteralIn (.node (.markupString value) span children) none (.attribute value span)
  | text {span : Span} {children : List Tree} :
      LiteralIn (.node .markupText span children) none (.text span)
  | chunk {chunks : List Chunk} {span : Span} {substitutions : List Tree} {i : Nat} {c : Chunk}
      {cooked : String} (hc : chunks[i]? = some c) (hcooked : c.cooked = some cooked) :
      LiteralIn (.node (.template chunks) span substitutions) (some i) (.chunk c cooked false)
  | tagged {chunks : List Chunk} {span : Span} {children : List Tree} {i : Nat} {c : Chunk}
      {cooked : String} : LiteralIn (.node (.tagged chunks) span children) (some i)
        (.chunk c cooked true)

/-- What is computed to be a literal is one. -/
theorem Tree.literalIn_of_literalIn? {u : Tree} {chunk : Option Nat} {l : Literal}
    (h : u.literalIn? chunk = some l) : LiteralIn u chunk l := by
  rw [Tree.literalIn?.eq_def] at h
  split at h
  · cases h
    exact .string
  · cases h
    exact .key
  · cases h
    exact .attribute
  · cases h
    exact .text
  · obtain ⟨c, hc, hcooked⟩ := Option.bind_eq_some_iff.mp h
    obtain ⟨cooked, heq, rfl⟩ := Option.map_eq_some_iff.mp hcooked
    exact .chunk hc heq
  · obtain ⟨c, hc, hcooked⟩ := Option.bind_eq_some_iff.mp h
    obtain ⟨cooked, -, rfl⟩ := Option.map_eq_some_iff.mp hcooked
    exact .tagged
  · cases h

/-- A literal, the node that it belongs to, and the steps that lead there. -/
structure Occurrence where
  steps : List Step
  node : Tree
  literal : Literal

/-- The literal at a place. -/
def Tree.literalAt? (t : Tree) (place : Address) : Option Occurrence :=
  (t.trail? place.path).bind fun found =>
    (found.2.literalIn? place.chunk).map fun l => ⟨found.1, found.2, l⟩

/-- The constant first argument of the lookup function. -/
def Occurrence.isLookupArgument (e : Exclusion) (o : Occurrence) : Bool :=
  endsAtLookup e o.steps && o.node.isStaticKey

/-- The name of a member of an interface. -/
def Step.namesSignature (s : Step) : Bool :=
  s.kind == .signature && s.child?.any Tree.isStaticKey

/-! ## Trees that go with a source -/

mutual

/-- A condition on nodes holds all over a tree. -/
def Tree.all (p : Kind → Span → List Tree → Bool) : Tree → Bool
  | .node kind span children => p kind span children && Tree.allIn p children

def Tree.allIn (p : Kind → Span → List Tree → Bool) : List Tree → Bool
  | [] => true
  | t :: ts => t.all p && Tree.allIn p ts

end

/-- The spans of a node that texts are read from agree with the source. -/
def Kind.agrees (source : List Char) (span : Span) : Kind → Bool
  | .template chunks => chunks.all fun c => Chars.slice? source c.span == some c.raw.toList
  | .markupText => (Chars.slice? source span).isSome
  | _ => true

/-- A syntax tree without computed members of the base class whose spans agree with the source. -/
def Tree.isProper (source : List Char) (t : Tree) : Bool :=
  t.all fun kind span children => kind.fits children && kind.agrees source span

namespace Tree

/-- What holds of all children holds of each. -/
theorem all_of_getElem? {p : Kind → Span → List Tree → Bool} {ts : List Tree} {i : Nat} {c : Tree}
    (hall : allIn p ts = true) (hc : ts[i]? = some c) : c.all p = true := by
  induction ts generalizing i with
  | nil => cases hc
  | cons t ts ih =>
    rw [allIn, Bool.and_eq_true] at hall
    cases i with
    | zero =>
      cases hc
      exact hall.1
    | succ i => exact ih hall.2 hc

/-- The steps to a place of a tree go from node to child. -/
theorem all_of_trail? {p : Kind → Span → List Tree → Bool} {t u : Tree} {path : List Nat}
    {steps : List Step} (hall : t.all p = true) (htrail : t.trail? path = some (steps, u)) :
    u.all p = true ∧
      ∀ s ∈ steps, (∃ span, p s.kind span s.children = true) ∧ ∃ c, s.child? = some c := by
  induction path generalizing t steps with
  | nil =>
    cases t
    cases htrail
    exact ⟨hall, by simp⟩
  | cons i path ih =>
    obtain ⟨kind, span, children⟩ := t
    obtain ⟨c, rest, hc, hrest, rfl⟩ := trail?_cons htrail
    rw [all, Bool.and_eq_true] at hall
    -- the condition holds of the child that the path enters, and of each step below it
    obtain ⟨hu, hsteps⟩ := ih (all_of_getElem? hall.2 hc) hrest
    refine ⟨hu, ?_⟩
    intro s hs
    rcases List.mem_cons.mp hs with rfl | hs
    · exact ⟨⟨span, hall.1⟩, c, hc⟩
    · exact hsteps s hs

end Tree

end Script

namespace Harvest

open Script

/-! ## Display literals -/

/-- The steps lead to a value: not into imports and exports of names or types, not to a name that is
computed from a constant or that a member of an interface has, and not into the key of a property of
a node. -/
structure LeadsToValue (e : Exclusion) (steps : List Step) : Prop where
  outside : ∀ s ∈ steps, s.kind.isPlumbing = false
  not_name : ∀ s ∈ steps, s.namesMember = false
  not_signature : ∀ s ∈ steps, s.namesSignature = false
  not_propsKey : inPropsKey e steps = false

instance (e : Exclusion) (steps : List Step) : Decidable (LeadsToValue e steps) :=
  decidable_of_iff ((∀ s ∈ steps, s.kind.isPlumbing = false) ∧
      (∀ s ∈ steps, s.namesMember = false) ∧ (∀ s ∈ steps, s.namesSignature = false) ∧
      inPropsKey e steps = false)
    ⟨fun ⟨houtside, hname, hsignature, hkey⟩ => ⟨houtside, hname, hsignature, hkey⟩,
      fun hleads => ⟨hleads.outside, hleads.not_name, hleads.not_signature, hleads.not_propsKey⟩⟩

/-- A literal that is shown to the users of a program: texts are taken at all, it says something in
the language that texts are taken from, it stands for a value, and the innermost call around it is
not excluded. -/
structure IsDisplay (h : Harvester) (source : List Char) (o : Occurrence) : Prop where
  switched_on : h.options.extractFromText = true
  accepts : h.accepts (o.literal.wording source) = true
  edges : o.literal.hasEdges = true
  value : o.literal.isValue = true
  leads : LeadsToValue h.exclusion o.steps
  call : (enclosingCall o.steps).any h.exclusion.isExcludedCall = false

instance (h : Harvester) (source : List Char) (o : Occurrence) : Decidable (IsDisplay h source o) :=
  decidable_of_iff (h.options.extractFromText = true ∧ h.accepts (o.literal.wording source) = true ∧
      o.literal.hasEdges = true ∧ o.literal.isValue = true ∧ LeadsToValue h.exclusion o.steps ∧
      (enclosingCall o.steps).any h.exclusion.isExcludedCall = false)
    ⟨fun ⟨hon, haccepts, hedges, hvalue, hleads, hcall⟩ =>
        ⟨hon, haccepts, hedges, hvalue, hleads, hcall⟩,
      fun hdisplay => ⟨hdisplay.switched_on, hdisplay.accepts, hdisplay.edges, hdisplay.value,
        hdisplay.leads, hdisplay.call⟩⟩

/-- The steps do not go to the identifier or the message of a wrapper element. -/
def OutsideWrapper (element : String) (steps : List Step) : Prop :=
  ∀ s ∈ steps, s.inWrapper element = false

instance (element : String) (steps : List Step) : Decidable (OutsideWrapper element steps) :=
  inferInstanceAs (Decidable (∀ s ∈ steps, _))

/-- A text is recorded as found, and something is put in place of a range. -/
def Extracts (actions : List Action) (text : String) (surface : Surface) (range? : Option Span) :
    Prop :=
  ∃ range new, range? = some range ∧ records actions = [⟨text, surface, false⟩] ∧
    edits actions = [⟨range, new⟩]

/-- Nothing is recorded, and nothing is changed. -/
def LeavesAlone (actions : List Action) : Prop :=
  records actions = [] ∧ edits actions = []

instance (actions : List Action) : Decidable (LeavesAlone actions) :=
  inferInstanceAs (Decidable (_ ∧ _))

/-- A text is extracted under a condition, and left alone otherwise. -/
structure Decides (condition : Prop) (actions : List Action) (text : String) (surface : Surface)
    (range? : Option Span) : Prop where
  extracts : condition → Extracts actions text surface range?
  leaves : ¬condition → LeavesAlone actions

theorem leavesAlone_nil : LeavesAlone [] :=
  ⟨rfl, rfl⟩

/-- What is left alone anyway may be left alone under any condition that never holds. -/
theorem decides_nil {condition : Prop} (hnot : ¬condition) (text : String) (surface : Surface)
    (range? : Option Span) : Decides condition [] text surface range? :=
  ⟨fun h => absurd h hnot, fun _ => leavesAlone_nil⟩

/-- A decision may be stated by an equivalent condition. -/
theorem Decides.congr {p q : Prop} {actions : List Action} {text : String} {surface : Surface}
    {range? : Option Span} (h : Decides p actions text surface range?) (hiff : q ↔ p) :
    Decides q actions text surface range? :=
  ⟨fun hq => h.extracts (hiff.mp hq), fun hq => h.leaves (mt hiff.mpr hq)⟩

/-! ## Decisions at a literal -/

section

variable {site : Site}

/-- Filing a text, and then putting something in its place. -/
theorem extracts_file (site : Site) (text : String) (surface : Surface) (range : Span)
    (new : String) :
    Extracts (site.file text surface ++ [.replace range new]) text surface (some range) :=
  ⟨range, new, rfl, rfl, rfl⟩

/-- A string literal is decided by the classifier and its surroundings. -/
theorem decides_literal (site : Site) (span : Span) (value : String) (slot : Slot) :
    Decides (site.takesTexts = true ∧ site.harvester.accepts (Text.trim value) = true)
      (site.literal span (some value) slot) (Text.trim value) .stringLiteral (some span) := by
  -- the test of the site is the condition, spelled as one
  have hcongr : site.takesTexts = true ∧ site.harvester.accepts (Text.trim value) = true ↔
      site.takesLiteral value = true := by
    rw [Site.takesLiteral, Bool.and_eq_true]
  refine Decides.congr ?_ hcongr
  constructor
  · intro htakes
    rw [Site.literal, if_pos htakes]
    exact extracts_file ..
  · intro htakes
    rw [Site.literal, if_neg htakes]
    exact leavesAlone_nil

/-- An argument of a translation call is decided by whether it is a known key. -/
theorem decides_constantArgument (site : Site) (span : Span) (value : String) (count : Nat) :
    Decides (site.harvester.knownText (Text.trim value) = none ∧
        site.harvester.accepts (Text.trim value) = true)
      (site.constantArgument span (some value) count) (Text.trim value) .lookupArgument
      (some span) := by
  constructor
  · rintro ⟨hknown, haccepts⟩
    have hne := ne_empty_of_accepts haccepts
    simp only [Site.constantArgument, Option.map_some, beq_iff_eq, hne, if_false, hknown, haccepts,
      if_true]
    exact extracts_file ..
  · intro hnot
    simp only [Site.constantArgument, Option.map_some, beq_iff_eq]
    split
    · exact leavesAlone_nil
    · split
      · -- a known key is filed again
        exact ⟨rfl, rfl⟩
      · rename_i hknown
        rw [if_neg fun haccepts => hnot ⟨hknown, haccepts⟩]
        exact leavesAlone_nil

/-- A chunk of a template is decided like a string literal, provided that it has edges. -/
theorem decides_chunk {c : Chunk} {cooked : String} (hcooked : c.cooked = some cooked)
    (hraw : Chars.slice? site.source c.span = some c.raw.toList) :
    Decides (site.takesTexts = true ∧ site.harvester.accepts (Text.trim cooked) = true ∧
        (Literal.chunk c cooked false).hasEdges = true)
      (if site.takesTexts then site.chunk c else []) (Text.trim cooked) .templateSegment
      ((Literal.chunk c cooked false).range? site.source) := by
  constructor
  · rintro ⟨htakes, haccepts, hedges⟩
    -- the edges of a chunk are what its blanks leave of it
    obtain ⟨inner, hinner⟩ := Option.isSome_iff_exists.mp hedges
    simp only [htakes, if_true, Site.chunk, hcooked, haccepts, hraw, beq_self_eq_true,
      Bool.and_self, hinner, Literal.range?, Option.map_some]
    exact extracts_file ..
  · intro hnot
    split
    · rename_i htakes
      simp only [Site.chunk, hcooked, hraw, beq_self_eq_true, Bool.and_true]
      split
      · rename_i haccepts
        split
        · rename_i inner hinner
          exact absurd ⟨htakes, haccepts, by simp [Literal.hasEdges, hinner]⟩ hnot
        · exact leavesAlone_nil
      · exact leavesAlone_nil
    · exact leavesAlone_nil

/-- A text between tags that is accepted is not blank. -/
theorem isSome_trimmedSpan?_of_accepts {h : Harvester} {raw : List Char}
    (haccepts : h.accepts (Text.decodeEntities (Text.collapse (String.ofList raw))) = true) :
    (Chars.trimmedSpan? raw).isSome = true := by
  have hne : Chars.trim raw ≠ [] := by
    intro hblank
    refine absurd ?_ (ne_empty_of_accepts haccepts)
    rw [Text.collapse, String.toList_ofList, Chars.collapse_of_trim_eq_nil hblank]
    rfl
  rw [Chars.trimmedSpan?_eq_some_iff.mpr ⟨hne, rfl⟩]
  rfl

/-- So is the text of an element. -/
theorem decides_elementText {span : Span} (hraw : (Chars.slice? site.source span).isSome = true) :
    Decides (site.takesTexts = true ∧
        site.harvester.accepts ((Literal.text span).wording site.source) = true)
      (site.elementText span) ((Literal.text span).wording site.source) .elementText
      ((Literal.text span).range? site.source) := by
  obtain ⟨raw, hraw⟩ := Option.isSome_iff_exists.mp hraw
  simp only [Literal.wording, Literal.range?, hraw, Option.getD_some, Option.bind_some]
  constructor
  · rintro ⟨htakes, haccepts⟩
    -- an accepted wording is not blank, so it has a range
    obtain ⟨inner, hinner⟩ :=
      Option.isSome_iff_exists.mp (isSome_trimmedSpan?_of_accepts haccepts)
    simp only [Site.elementText, htakes, if_true, hraw, hinner, haccepts, Option.map_some]
    split
    · exact ⟨_, _, rfl, rfl, rfl⟩
    · exact extracts_file ..
  · intro hnot
    simp only [Site.elementText, hraw]
    split
    · rename_i htakes
      split
      · rw [if_neg fun haccepts => hnot ⟨htakes, haccepts⟩]
        exact leavesAlone_nil
      · exact leavesAlone_nil
    · exact leavesAlone_nil

/-- What is done at a node other than a template is done at the node, not at a chunk. -/
theorem actionsAt_own {role : Role} {kind : Kind} {span : Span} {children : List Tree}
    (htemplate : ∀ chunks, kind ≠ .template chunks) (chunk : Option Nat) :
    actionsAt site role (.node kind span children) ⟨[], chunk⟩ =
      if chunk = none then enter site role kind span children ++ leave site role kind children
      else [] := by
  -- only a template has places of its own below it
  have hentry : entryPlace role kind children = ⟨[], none⟩ := by
    rw [entryPlace.eq_def]
    split
    · exact absurd rfl (htemplate _)
    · rfl
  have hplaced : placedLeave site role kind children =
      (leave site role kind children).map fun a => (⟨[], none⟩, a) := by
    rw [placedLeave.eq_def]
    dsimp only
    split
    · exact absurd rfl (htemplate _)
    · rfl
  rw [actionsAt_here, hentry, hplaced, atPlace_map]
  cases chunk <;> simp

/-- Nothing is done on leaving a node that is a literal. -/
theorem actionsAt_literal {role : Role} {kind : Kind} {span : Span} {children : List Tree}
    (htemplate : ∀ chunks, kind ≠ .template chunks)
    (hleave : leave site role kind children = []) :
    actionsAt site role (.node kind span children) ⟨[], none⟩ =
      enter site role kind span children := by
  rw [actionsAt_own htemplate, if_pos rfl, hleave, List.append_nil]

/-- A chunk of a template that is not the constant argument of a lookup is read by itself. -/
theorem actionsAt_chunk {role : Role} {chunks : List Chunk} {span : Span}
    {substitutions : List Tree} {i : Nat} {c : Chunk}
    (hrole : (∃ count, role = .lookup count) → substitutions.isEmpty = false)
    (hc : chunks[i]? = some c) :
    actionsAt site role (.node (.template chunks) span substitutions) ⟨[], some i⟩ =
      if site.takesTexts then site.chunk c else [] := by
  have hentry : entryPlace role (.template chunks) substitutions = ⟨[], none⟩ := by
    cases role with
    | lookup count => simp [entryPlace, hrole ⟨count, rfl⟩]
    | _ => rfl
  -- the argument of a look-up leaves its chunks alone, any other template files them one by one
  have hplaced : placedLeave site role (.template chunks) substitutions =
      if site.takesTexts then placedChunks site chunks 0 else [] := by
    cases role with
    | lookup count => simp [placedLeave, hrole ⟨count, rfl⟩]
    | _ => rfl
  rw [actionsAt_here, hentry, if_neg (by simp), hplaced, List.nil_append]
  split
  · simp [atPlace_placedChunks, hc]
  · rfl

/-- The constant first argument of the lookup function, as a string or as a template. -/
theorem decides_lookup {count : Nat} {u : Tree} {chunk : Option Nat} {l : Literal}
    (hfits : u.kind.fits u.children = true) (hstatic : u.isStaticKey = true)
    (hl : u.literalIn? chunk = some l) :
    Decides (site.harvester.knownText (l.wording site.source) = none ∧
        site.harvester.accepts (l.wording site.source) = true)
      (actionsAt site (.lookup count) u ⟨[], chunk⟩) (l.wording site.source) .lookupArgument
      (some u.span) := by
  cases Tree.literalIn_of_literalIn? hl with
  | string =>
    rw [actionsAt_literal (by simp) rfl]
    exact decides_constantArgument ..
  | @chunk chunks span substitutions i c cooked hc hcooked =>
    -- without substitutions there is one chunk
    obtain rfl := List.isEmpty_iff.mp hstatic
    have hone : chunks.length = 1 := beq_iff_eq.mp hfits
    obtain ⟨c', rfl⟩ := List.length_eq_one_iff.mp hone
    obtain ⟨rfl, rfl⟩ : i = 0 ∧ c' = c := by
      cases i with
      | zero => exact ⟨rfl, Option.some.inj hc⟩
      | succ i => cases hc
    have hactions : actionsAt site (.lookup count) (.node (.template [c']) span []) ⟨[], some 0⟩ =
        site.constantArgument span (some cooked) count := by
      have hentry : entryPlace (.lookup count) (.template [c']) [] = ⟨[], some 0⟩ := rfl
      rw [actionsAt_here, if_pos hentry, ← hcooked]
      exact List.append_nil _
    rw [hactions]
    exact decides_constantArgument ..
  | _ => cases hstatic

/-- Any other literal. -/
theorem decides_value {role : Role} {u : Tree} {chunk : Option Nat} {l : Literal}
    (hagrees : u.kind.agrees site.source u.span = true) (hl : u.literalIn? chunk = some l)
    (hrole : (∃ count, role = .lookup count) → u.isStaticKey = false) :
    Decides (l.isValue = true ∧ site.takesTexts = true ∧
        site.harvester.accepts (l.wording site.source) = true ∧ l.hasEdges = true)
      (actionsAt site role u ⟨[], chunk⟩) (l.wording site.source) l.surface
      (l.range? site.source) := by
  cases Tree.literalIn_of_literalIn? hl with
  | @string value span children =>
    have hslot : ∃ slot, enter site role (.strLit (some value)) span children =
        site.literal span (some value) slot := by
      cases role with
      | lookup count => cases hrole ⟨count, rfl⟩
      | part slot => exact ⟨slot, rfl⟩
      | _ => exact ⟨.plain, rfl⟩
    obtain ⟨slot, hslot⟩ := hslot
    rw [actionsAt_literal (by simp) rfl, hslot]
    exact (decides_literal site span value slot).congr
      (by simp [Literal.isValue, Literal.hasEdges, Literal.wording])
  | key =>
    rw [actionsAt_literal (by simp) rfl]
    exact decides_nil (by simp [Literal.isValue]) _ _ _
  | @«attribute» value span children =>
    rw [actionsAt_literal (by simp) rfl]
    exact (decides_literal site span value .attribute).congr
      (by simp [Literal.isValue, Literal.hasEdges, Literal.wording])
  | text =>
    rw [actionsAt_literal (by simp) rfl]
    exact Decides.congr (decides_elementText hagrees)
      (by simp [Literal.isValue, Literal.hasEdges])
  | @chunk chunks span substitutions i c cooked hc hcooked =>
    have hraw : Chars.slice? site.source c.span = some c.raw.toList :=
      beq_iff_eq.mp (List.all_eq_true.mp hagrees c (List.mem_of_getElem? hc))
    rw [actionsAt_chunk hrole hc]
    exact (decides_chunk hcooked hraw).congr (by simp [Literal.isValue, Literal.wording])
  | tagged =>
    -- what is done at a tagged template is not done at its chunks
    rw [actionsAt_own (by simp), if_neg (by simp)]
    exact decides_nil (by simp [Literal.isValue]) _ _ _

end

/-! ## Decisions in a script -/

/-- A walk is kept from the end of some steps just when they do not lead to a value or go into a
wrapper element. -/
theorem barred_iff {site : Site} {steps : List Step}
    (hname : ∀ s ∈ steps, s.namesSignature = false) :
    Barred site .plain steps ↔
      ¬(LeadsToValue site.harvester.exclusion steps ∧
        OutsideWrapper site.options.jsxElement steps) := by
  have hkeys : LeadsToKey site.harvester.exclusion .plain steps ↔
      inPropsKey site.harvester.exclusion steps = true := by
    simp [LeadsToKey, Role.plain]
  rw [Barred, hkeys]
  -- the names in signatures are the one thing a walk is not kept from, so `hname` is needed
  constructor
  · rintro (⟨s, hs, hclosed⟩ | hkey) ⟨hvalue, hwrapper⟩
    · simp [Step.isClosed, hvalue.outside s hs, hvalue.not_name s hs, hwrapper s hs] at hclosed
    · rw [hvalue.not_propsKey] at hkey
      cases hkey
  · intro hnot
    refine Classical.byContradiction fun hopen => hnot ?_
    rw [not_or] at hopen
    have hclosed (s : Step) (hs : s ∈ steps) :
        (s.kind.isPlumbing = false ∧ s.namesMember = false) ∧
          s.inWrapper site.options.jsxElement = false := by
      have hopen := fun h => hopen.1 ⟨s, hs, h⟩
      simpa [Step.isClosed] using hopen
    exact ⟨⟨fun s hs => (hclosed s hs).1.1, fun s hs => (hclosed s hs).1.2, hname,
      Bool.eq_false_iff.mpr hopen.2⟩, fun s hs => (hclosed s hs).2⟩

/-- Whether texts are taken at the end of some steps. -/
theorem takesTexts_within {h : Harvester} {source : List Char} {quote : Quote}
    (steps : List Step) :
    (Site.within { harvester := h, source, quote }
      ((steps.filterMap Step.frame?).getLast?.getD none)).takesTexts = true ↔
      h.options.extractFromText = true ∧
        (enclosingCall steps).any h.exclusion.isExcludedCall = false := by
  have hcall : (steps.filterMap Step.frame?).getLast?.getD none = enclosingCall steps := by
    rw [enclosingCall]
    cases (steps.filterMap Step.frame?).getLast? <;> rfl
  rw [hcall, Site.takesTexts, Bool.and_eq_true, Bool.not_eq_true']
  rfl

section

variable {h : Harvester} {quote : Quote} {t : Tree} {source : List Char} {place : Address}
  {o : Occurrence}

/-- The node of a literal of a proper tree. -/
theorem proper_node (hproper : t.isProper source = true) (ho : t.literalAt? place = some o) :
    o.node.kind.fits o.node.children = true ∧ o.node.kind.agrees source o.node.span = true ∧
      o.node.literalIn? place.chunk = some o.literal := by
  obtain ⟨⟨steps, u⟩, htrail, hliteral⟩ := Option.bind_eq_some_iff.mp ho
  obtain ⟨l, hl, rfl⟩ := Option.map_eq_some_iff.mp hliteral
  have hall := (Tree.all_of_trail? hproper htrail).1
  cases u with
  | node kind span children =>
    rw [Tree.all, Bool.and_eq_true, Bool.and_eq_true] at hall
    exact ⟨hall.1.1, hall.1.2, hl⟩

/-- What is done at a literal is done at its node, in its innermost frame, unless the walk is kept
from it. -/
theorem actionsAt_occurrence (hproper : t.isProper source = true)
    (ho : t.literalAt? place = some o) (hname : ∀ s ∈ o.steps, s.namesSignature = false) :
    (¬(LeadsToValue h.exclusion o.steps ∧ OutsideWrapper h.options.jsxElement o.steps) ∧
        actionsAt { harvester := h, source, quote } .plain t place = []) ∨
      (LeadsToValue h.exclusion o.steps ∧ OutsideWrapper h.options.jsxElement o.steps) ∧
        ∃ role, ((∃ count, role = .lookup count) ↔ endsAtLookup h.exclusion o.steps = true) ∧
          actionsAt { harvester := h, source, quote } .plain t place =
            actionsAt (Site.within { harvester := h, source, quote }
              ((o.steps.filterMap Step.frame?).getLast?.getD none)) role o.node
                ⟨[], place.chunk⟩ := by
  obtain ⟨⟨steps, u⟩, htrail, hliteral⟩ := Option.bind_eq_some_iff.mp ho
  obtain ⟨l, -, rfl⟩ := Option.map_eq_some_iff.mp hliteral
  have hfits : ∀ s ∈ steps, s.kind.fits s.children = true ∧ ∃ c, s.child? = some c := by
    intro s hs
    obtain ⟨⟨span, hnode⟩, hchild⟩ := (Tree.all_of_trail? hproper htrail).2 s hs
    exact ⟨(Bool.and_eq_true_iff.mp hnode).1, hchild⟩
  have hactions := actionsAt_eq_of_trail? htrail { harvester := h, source, quote } .plain
    place.chunk
  have harrived := arrived_arrive hfits { harvester := h, source, quote } .plain
  have hbarred : Barred { harvester := h, source, quote } .plain steps ↔
      ¬(LeadsToValue h.exclusion steps ∧ OutsideWrapper h.options.jsxElement steps) :=
    barred_iff hname
  -- the walk arrives at the node, or one of the steps to it is barred
  cases harrive : arrive { harvester := h, source, quote } .plain steps with
  | none =>
    rw [harrive] at harrived hactions
    exact Or.inl ⟨hbarred.mp harrived, hactions⟩
  | some v =>
    obtain ⟨site, role⟩ := v
    rw [harrive] at harrived hactions
    obtain ⟨hopen, rfl, hlookup⟩ := harrived
    refine Or.inr ⟨Classical.not_not.mp (mt hbarred.mpr hopen), role, ?_, hactions⟩
    rw [hlookup]
    simp [Role.plain]

/-- A literal that is not the argument of a lookup is extracted when it is a display literal outside
the attributes of a wrapper element. -/
theorem decides_of_not_lookup (hproper : t.isProper source = true)
    (ho : t.literalAt? place = some o) (hname : ∀ s ∈ o.steps, s.namesSignature = false)
    (hargument : o.isLookupArgument h.exclusion = false) :
    Decides (IsDisplay h source o ∧ OutsideWrapper h.options.jsxElement o.steps)
      (actionsAt { harvester := h, source, quote } .plain t place) (o.literal.wording source)
      o.literal.surface (o.literal.range? source) := by
  obtain ⟨-, hagrees, hl⟩ := proper_node hproper ho
  -- a step on the way bars the literal, or the walk comes to it
  rcases actionsAt_occurrence (h := h) hproper ho hname with
    ⟨hnot, hactions⟩ | ⟨hleads, role, hrole, hactions⟩
  · rw [hactions]
    exact decides_nil (fun hdisplay => hnot ⟨hdisplay.1.leads, hdisplay.2⟩) _ _ _
  · have hstatic : (∃ count, role = .lookup count) → o.node.isStaticKey = false := by
      intro hcount
      rw [Occurrence.isLookupArgument, hrole.mp hcount, Bool.true_and] at hargument
      exact hargument
    rw [hactions]
    refine (decides_value hagrees hl hstatic).congr ?_
    rw [takesTexts_within]
    constructor
    · rintro ⟨hdisplay, -⟩
      exact ⟨hdisplay.value, ⟨hdisplay.switched_on, hdisplay.call⟩, hdisplay.accepts,
        hdisplay.edges⟩
    · rintro ⟨hvalue, ⟨hon, hcall⟩, haccepts, hedges⟩
      exact ⟨⟨hon, haccepts, hedges, hvalue, hleads.1, hcall⟩, hleads.2⟩

/-- The constant argument of a lookup is extracted wherever a walk gets to it, when it is no known
key and is in the language that texts are taken from. -/
theorem decides_of_lookup (hproper : t.isProper source = true)
    (ho : t.literalAt? place = some o) (hname : ∀ s ∈ o.steps, s.namesSignature = false)
    (hargument : o.isLookupArgument h.exclusion = true) :
    Decides ((LeadsToValue h.exclusion o.steps ∧ OutsideWrapper h.options.jsxElement o.steps) ∧
        h.knownText (o.literal.wording source) = none ∧ h.accepts (o.literal.wording source) = true)
      (actionsAt { harvester := h, source, quote } .plain t place) (o.literal.wording source)
      .lookupArgument (some o.node.span) := by
  obtain ⟨hfits, -, hl⟩ := proper_node hproper ho
  obtain ⟨hends, hstatic⟩ := Bool.and_eq_true_iff.mp hargument
  rcases actionsAt_occurrence (h := h) hproper ho hname with
    ⟨hnot, hactions⟩ | ⟨hleads, role, hrole, hactions⟩
  · rw [hactions]
    exact decides_nil (fun hlookup => hnot hlookup.1) _ _ _
  · obtain ⟨count, rfl⟩ := hrole.mpr hends
    rw [hactions]
    exact (decides_lookup hfits hstatic hl).congr (and_iff_right hleads)

/-- Every action of a walk over a script is taken at one place, and at the literals just the display
literals are extracted. Two kinds of literals go by rules of their own: the identifier and the
message of a wrapper element are left alone, and the constant argument of a lookup is extracted,
although its call is excluded, when it is no known key. The names of the members of interfaces are
not spoken of. -/
theorem decides_display (h : Harvester) (quote : Quote) (hproper : t.isProper source = true)
    (ho : t.literalAt? place = some o) (hname : ∀ s ∈ o.steps, s.namesSignature = false) :
    (placedWalk { harvester := h, source, quote } .plain t).map Prod.snd =
        walk { harvester := h, source, quote } .plain t ∧
      (o.isLookupArgument h.exclusion = false →
        Decides (IsDisplay h source o ∧ OutsideWrapper h.options.jsxElement o.steps)
          (actionsAt { harvester := h, source, quote } .plain t place) (o.literal.wording source)
          o.literal.surface (o.literal.range? source)) ∧
      (o.isLookupArgument h.exclusion = true →
        Decides ((LeadsToValue h.exclusion o.steps ∧ OutsideWrapper h.options.jsxElement o.steps) ∧
            h.knownText (o.literal.wording source) = none ∧
            h.accepts (o.literal.wording source) = true)
          (actionsAt { harvester := h, source, quote } .plain t place) (o.literal.wording source)
          .lookupArgument (some o.node.span)) :=
  ⟨map_snd_placedWalk _ _ _, decides_of_not_lookup hproper ho hname,
    decides_of_lookup hproper ho hname⟩

end

/-- A literal is found at a place, and a test holds of it. -/
theorem exists_of_any_literalAt? {t : Tree} {place : Address} {p : Occurrence → Bool}
    (h : (t.literalAt? place).any p = true) : ∃ o, t.literalAt? place = some o ∧ p o = true := by
  cases ho : t.literalAt? place with
  | none =>
    rw [ho] at h
    cases h
  | some o =>
    rw [ho] at h
    exact ⟨o, rfl, h⟩

/-- An argument of an excluded call is left alone, a literal in a function that is one is not. -/
theorem decides_display_arrow : ∃ h t,
    Harvester.ofOptions {} = .ok h ∧
      parseModule "console.log(\"标题\", () => alert(\"你好\"));" .js = .ok t ∧
      LeavesAlone (actionsAt ⟨h, "console.log(\"标题\", () => alert(\"你好\"));".toList, .double, none⟩
        .plain t ⟨[0, 0, 1], none⟩) ∧
      Extracts (actionsAt ⟨h, "console.log(\"标题\", () => alert(\"你好\"));".toList, .double, none⟩
        .plain t ⟨[0, 0, 2, 0, 1], none⟩) "你好" .stringLiteral (some ⟨34, 42⟩) := by
  have heval : (Harvester.ofOptions {}).toOption.map (fun h =>
      (parseModule "console.log(\"标题\", () => alert(\"你好\"));" .js).toOption.map fun t =>
        t.isProper "console.log(\"标题\", () => alert(\"你好\"));".toList &&
        (t.literalAt? ⟨[0, 0, 1], none⟩).any (fun o =>
          o.steps.all (!·.namesSignature) && !o.isLookupArgument h.exclusion &&
          !decide (IsDisplay h "console.log(\"标题\", () => alert(\"你好\"));".toList o)) &&
        (t.literalAt? ⟨[0, 0, 2, 0, 1], none⟩).any (fun o =>
          o.steps.all (!·.namesSignature) && !o.isLookupArgument h.exclusion &&
          o.literal == .string "你好" ⟨34, 42⟩ &&
          decide (IsDisplay h "console.log(\"标题\", () => alert(\"你好\"));".toList o) &&
          decide (OutsideWrapper h.options.jsxElement o.steps))) = some (some true) := by
    decide +kernel
  obtain ⟨h, hh, hparsed⟩ := exists_ok_of_toOption_map heval
  obtain ⟨t, hparse, htests⟩ := exists_ok_of_toOption_map hparsed
  rw [Bool.and_eq_true, Bool.and_eq_true] at htests
  obtain ⟨⟨hproper, hfirst⟩, hsecond⟩ := htests
  obtain ⟨o, ho, htest⟩ := exists_of_any_literalAt? hfirst
  obtain ⟨o', ho', htest'⟩ := exists_of_any_literalAt? hsecond
  simp only [Bool.and_eq_true, List.all_eq_true, Bool.not_eq_true', decide_eq_false_iff_not,
    decide_eq_true_eq, beq_iff_eq] at htest htest'
  obtain ⟨⟨hname, hlookup⟩, hdisplay⟩ := htest
  obtain ⟨⟨⟨⟨hname', hlookup'⟩, hliteral⟩, hdisplay'⟩, hwrapper⟩ := htest'
  -- what a call displays is left alone, what an arrow in it displays is taken
  have hleft := (decides_display h .double hproper ho hname).2.1 hlookup
  have htaken := (decides_display h .double hproper ho' hname').2.1 hlookup'
  rw [hliteral] at htaken
  exact ⟨h, t, hh, hparse, hleft.leaves fun hboth => hdisplay hboth.1,
    htaken.extracts ⟨hdisplay', hwrapper⟩⟩

/-- The identifier of a wrapper element is a display literal and is left alone. -/
theorem leavesAlone_wrapperId : ∃ h t o,
    Harvester.ofOptions { replaceTexts := true } = .ok h ∧
      parseModule "const a = <Trans id=\"你好\" />;" .jsx = .ok t ∧
      t.isProper "const a = <Trans id=\"你好\" />;".toList = true ∧
      t.literalAt? ⟨[0, 0, 1, 0, 0], none⟩ = some o ∧
      IsDisplay h "const a = <Trans id=\"你好\" />;".toList o ∧
      LeavesAlone (actionsAt ⟨h, "const a = <Trans id=\"你好\" />;".toList, .double, none⟩ .plain t
        ⟨[0, 0, 1, 0, 0], none⟩) := by
  have heval : (Harvester.ofOptions { replaceTexts := true }).toOption.map (fun h =>
      (parseModule "const a = <Trans id=\"你好\" />;" .jsx).toOption.map fun t =>
        (t.literalAt? ⟨[0, 0, 1, 0, 0], none⟩).any fun o =>
          decide (t.isProper "const a = <Trans id=\"你好\" />;".toList = true ∧
            IsDisplay h "const a = <Trans id=\"你好\" />;".toList o ∧
            LeavesAlone (actionsAt
              ⟨h, "const a = <Trans id=\"你好\" />;".toList, .double, none⟩ .plain t
              ⟨[0, 0, 1, 0, 0], none⟩))) = some (some true) := by
    decide +kernel
  obtain ⟨h, hh, hparsed⟩ := exists_ok_of_toOption_map heval
  obtain ⟨t, hparse, hfound⟩ := exists_ok_of_toOption_map hparsed
  obtain ⟨o, ho, htest⟩ := exists_of_any_literalAt? hfound
  obtain ⟨hproper, hdisplay, hleaves⟩ := of_decide_eq_true htest
  exact ⟨h, t, o, hh, hparse, hproper, ho, hdisplay, hleaves⟩

end Harvest

end TextHarvest
