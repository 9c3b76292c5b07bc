import TextHarvest.Proofs.Harvest.Apart
import TextHarvest.Proofs.Harvest.Places
import TextHarvest.Proofs.Patch.Ranges
import TextHarvest.Proofs.Script.Number

/-!
# Marking properties as dynamic

When the text of a property of a node of compiled render code is replaced by a call, the property is
marked as dynamic: the flag of the node gets a bit more, and the list of dynamic properties gets the
names. Over a tree whose ranges are nested, in which flags are numbers and lists are arrays, this is
all that marking does. Every argument stays where it was, missing ones are filled up with `null`,
the flag keeps its bits, and the list keeps its elements.

Main results:

* `MarkedArguments` — the arguments of a marked call.
* `addsBit_withPropsFlag` — what marking does to the flag.
* `listsNames_extendNames` — what it does to the list of dynamic properties.
* `recomposed_call` — what becomes of the call.
-/

namespace TextHarvest.Harvest

open Script

/-! ## Texts of trees -/

/-- What a walk makes of the text of a tree. -/
def rewritten (site : Site) (role : Role) (t : Tree) : List Char :=
  Patch.within site.source t.span (edits (walk site role t))

/-- The text of a tree in which the texts of some parts are exchanged for others. -/
def Recomposed (source : List Char) (t : Tree) (parts : List (Tree × List Char))
    (new : List Char) : Prop :=
  Exchanged (parts.map fun p => (⟨p.1.span.start, Chars.cut source p.1.span⟩, p.2)) t.span.start
    (Chars.cut source t.span) new

/-- Some trees come one behind the other, with something in between. -/
def InRow (ts : List Tree) : Prop :=
  ts.Pairwise fun t u => t.span.stop < u.span.start

instance (ts : List Tree) : Decidable (InRow ts) :=
  inferInstanceAs (Decidable (ts.Pairwise _))

/-- Whether an element of an array is one that is written. -/
def isWritten (e : Tree) : Bool :=
  e.kind != .hole

/-- The arguments of a call and the elements of an array come in a row. -/
def inRow : Kind → List Tree → Bool
  | .call _, children => decide (InRow children)
  | .construct _, children => decide (InRow children)
  | .array, elements => decide (InRow (elements.filter isWritten))
  | _, _ => true

/-- In all calls and arrays of a tree the parts come in a row. -/
def isInRow (t : Tree) : Bool :=
  t.all fun kind _ children => inRow kind children

/-- A tree is in a row when each node is. -/
theorem isInRow_node {kind : Kind} {span : Span} {children : List Tree} :
    isInRow (.node kind span children) = true ↔
      inRow kind children = true ∧ ∀ c ∈ children, isInRow c = true := by
  rw [isInRow, Tree.all, Bool.and_eq_true, Tree.allIn_iff]
  rfl

/-- The children of a call stand one behind the other. -/
theorem inRow_of_isCall {kind : Kind} {children : List Tree} (hkind : IsCall kind)
    (hrow : inRow kind children = true) : InRow children := by
  cases kind <;> first | exact of_decide_eq_true hrow | exact hkind.elim

/-! ## Parts that are edited in two turns -/

/-- What a walk and some marks that follow later make of the text of a tree. -/
def markedText (site : Site) (role : Role) (t : Tree) (marks : List Edit) : List Char :=
  Patch.within site.source t.span (edits (walk site role t) ++ marks)

/-- A part of a tree with the edits of the walk over it and the marks that follow later. -/
def walked (site : Site) (role : Role) (t : Tree) (marks : List Edit) : EditedPart :=
  ⟨t.span, edits (walk site role t), marks⟩

@[simp] theorem span_walked (site : Site) (role : Role) (t : Tree) (marks : List Edit) :
    (walked site role t marks).span = t.span := rfl

@[simp] theorem first_walked (site : Site) (role : Role) (t : Tree) (marks : List Edit) :
    (walked site role t marks).first = edits (walk site role t) := rfl

@[simp] theorem later_walked (site : Site) (role : Role) (t : Tree) (marks : List Edit) :
    (walked site role t marks).later = marks := rfl

section

variable {source : List Char} {site : Site} {t : Tree} {role : Role} {marks : List Edit}

/-- A walk over a nested tree makes edits in its range. -/
theorem inside_of_mem_walk (hsource : site.source = source)
    (hnested : t.isNested source = true) :
    ∀ e ∈ edits (walk site role t), e.span.Inside t.span := by
  intro e he
  obtain ⟨range, hrange, hinside⟩ := (editsFit_walk t hnested site role hsource).inside e he
  exact hinside.trans (Tree.inside_of_mem_extents hnested hrange)

/-- A tree with marks at its edges is a sound part. -/
theorem sound_walked (hsource : site.source = source) (hnested : t.isNested source = true)
    (hmarks : ∀ e ∈ marks, e.span.Inside t.span) : (walked site role t marks).Sound source where
  cuts := Tree.cuts_span hnested
  inside := List.forall_mem_append.mpr ⟨inside_of_mem_walk hsource hnested, hmarks⟩

/-- It is exchanged for its text with the marks. -/
theorem exchange_walked (hsource : site.source = source) :
    (walked site role t marks).exchange source =
      (⟨t.span.start, Chars.cut source t.span⟩, markedText site role t marks) := by
  subst hsource
  rfl

/-- Without marks that is the rewritten text. -/
theorem markedText_nil (site : Site) (role : Role) (t : Tree) :
    markedText site role t [] = rewritten site role t := by
  rw [markedText, List.append_nil, rewritten]

/-- What is inserted behind a part follows what becomes of it. -/
theorem markedText_behind (hsource : site.source = source) (hnested : t.isNested source = true)
    (text : String) : markedText site role t [⟨Span.point t.span.stop, text⟩] =
      rewritten site role t ++ text.toList := by
  subst hsource
  exact Patch.within_behind (Tree.cuts_span hnested) (inside_of_mem_walk rfl hnested) text

/-- The end of a tree is within it. -/
theorem inside_behind (hnested : t.isNested source = true) :
    (Span.point t.span.stop).Inside t.span :=
  ⟨(Tree.cuts_span hnested).order, Nat.le_refl _, Nat.le_refl _⟩

end

/-- The parts of a node are exchanged for what becomes of them. -/
theorem exchanged_children {source : List Char} {kind : Kind} {span : Span}
    {children ts : List Tree} (ps : List EditedPart)
    (hnested : (Script.Tree.node kind span children).isNested source = true) (hts : ts ⊆ children)
    (hrow : InRow ts) (hspans : ps.map EditedPart.span = ts.map Tree.span)
    (hsound : ∀ p ∈ ps, p.Sound source) :
    Exchanged (ps.map (EditedPart.exchange source)) span.start (Chars.cut source span)
      (Patch.within source span (ps.flatMap EditedPart.first ++ ps.flatMap EditedPart.later)) := by
  obtain ⟨hfits, -⟩ := Tree.isNested_node.mp hnested
  refine Patch.exchanged_within hfits.cuts_span hsound ?_ ?_
  · have hpairwise : (ts.map Tree.span).Pairwise fun s t => s.stop < t.start :=
      List.pairwise_map.mpr hrow
    rw [← hspans] at hpairwise
    exact List.pairwise_map.mp hpairwise
  · intro p hp
    have hspan : p.span ∈ ps.map EditedPart.span := List.mem_map_of_mem hp
    rw [hspans] at hspan
    exact hfits.inside _ (List.mem_append_right _ (List.map_subset Tree.span hts hspan))

/-! ## The flag -/

/-- A flag that has all bits of a number literal and the bit for dynamic properties. As long as the
literal is below `2 ^ 53`, the flag is read back as it is. -/
structure AddsBit (raw : String) (flag : Nat) : Prop where
  kept : ∀ i, (Number.value raw).toWord.testBit i = true → flag.testBit i = true
  props : flag.testBit 3 = true
  readBack : (Number.value raw).toWord < Nat.pow 2 53 →
    (Number.value (Nat.repr flag)).toWord = flag

/-- A flag gets the bit of dynamic properties. -/
theorem addsBit_withPropsFlag (raw : String) (span : Span) (parts : List Tree) :
    AddsBit raw (withPropsFlag (.node (.numLit raw) span parts)) where
  kept := by
    intro i hi
    rw [withPropsFlag, Nat.testBit_or, hi, Bool.true_or]
  props := by
    have hprops : propsFlag.testBit 3 = true := by decide
    rw [withPropsFlag, Nat.testBit_or, hprops, Bool.or_true]
  readBack := by
    intro hlt
    have hflag : propsFlag < Nat.pow 2 53 := by decide
    have hpos : 0 < propsFlag := by decide
    -- the sum of bits stays below the numbers that a word holds exactly
    have hle : propsFlag ≤ withPropsFlag (.node (.numLit raw) span parts) := Nat.right_le_or
    exact Number.toWord_value_repr (Nat.lt_of_lt_of_le hpos hle) (Nat.or_lt_two_pow hlt hflag)

/-! ## The list of dynamic properties -/

section

variable (source : List Char) (own : Tree → List Char) (names : List String) (quote : Quote)

/-- What becomes of an array of dynamic properties: its elements stay, each as it is rewritten for
itself, and names that are no literals among them follow behind the last one. An array without
elements is exchanged for an array of the names. -/
inductive ListsNames : Tree → List Char → Prop
  | extended {span : Span} {elements front : List Tree} {last : Tree} {added : List String}
      {new : List Char} (hwritten : elements.filter isWritten = front ++ [last])
      (hnames : ∀ n ∈ names, n ∈ added ∨ ∃ e ∈ elements, e.unspread.literal? = some n)
      (hnew : Recomposed source (.node .array span elements)
        (front.map (fun e => (e, own e)) ++
          [(last, own last ++
            (String.join (added.map fun n => ", " ++ Text.quoted n quote)).toList)]) new) :
      ListsNames (.node .array span elements) new
  | fresh {span : Span} {elements : List Tree} (hnone : elements.filter isWritten = []) :
      ListsNames (.node .array span elements) (nameArray names quote).toList

end

section

variable {site : Site} {span : Span} {elements : List Tree}

/-- Nothing is changed at a hole. -/
theorem edits_walk_hole {e : Tree} (hnested : e.isNested site.source = true) (role : Role)
    (hhole : isWritten e = false) : edits (walk site role e) = [] := by
  obtain ⟨kind, span, parts⟩ := e
  obtain rfl : kind = .hole := by
    unfold isWritten at hhole
    simpa [Script.Tree.kind] using hhole
  obtain rfl := List.isEmpty_iff.mp ((Tree.isNested_node.mp hnested).1.leaf rfl)
  rfl

/-- The edits of some trees that are visited alike. -/
theorem edits_walkAll_map (s : Site) (role : Role) (ts : List Tree) :
    edits (walkAll (ts.map fun _ => some (s, role)) ts) =
      ts.flatMap fun t => edits (walk s role t) := by
  induction ts with
  | nil => rfl
  | cons t ts ih => rw [List.map_cons, walkAll, edits_append, ih, List.flatMap_cons]

/-- The edits in an array are those in its written elements. -/
theorem edits_walk_array
    (hparts : ∀ e ∈ elements, e.isNested site.source = true) :
    edits (walk site .plain (.node .array span elements)) =
      (elements.filter isWritten).flatMap fun e => edits (walk site .plain e) := by
  have hvisits : visits site .plain .array elements =
      elements.map fun _ => some (site, Role.plain) := rfl
  rw [edits_walk_of_idle rfl rfl, hvisits, edits_walkAll_map]
  induction elements with
  | nil => rfl
  | cons e elements ih =>
    obtain ⟨he, hparts⟩ := List.forall_mem_cons.mp hparts
    rw [List.flatMap_cons, ih hparts rfl, List.filter_cons]
    split
    · rw [List.flatMap_cons]
    · -- a hole has no edits, so it may be left out of the list
      next hhole =>
      rw [edits_walk_hole he .plain (by simpa using hhole), List.nil_append]

/-- What becomes of an array to whose last element a text is added. -/
theorem recomposed_array
    (hnested : (Script.Tree.node .array span elements).isNested site.source = true)
    (hrow : InRow (elements.filter isWritten)) {front : List Tree} {last : Tree}
    (hwritten : elements.filter isWritten = front ++ [last]) {later : List Edit} {text : String}
    (hlater : later = [⟨Span.point last.span.stop, text⟩] ∨ later = [] ∧ text = "") :
    Recomposed site.source (.node .array span elements)
      (front.map (fun e => (e, rewritten site .plain e)) ++
        [(last, rewritten site .plain last ++ text.toList)])
      (Patch.within site.source span
        (edits (walk site .plain (.node .array span elements)) ++ later)) := by
  obtain ⟨hfits, hparts⟩ := Tree.isNested_node.mp hnested
  have hmem : front ++ [last] ⊆ elements := by
    rw [← hwritten]
    exact List.filter_subset_self ..
  have hlast : last.isNested site.source = true := hparts last (hmem (by simp))
  -- the last element gets the added text behind it, if there is one
  have hmarked : markedText site .plain last later = rewritten site .plain last ++ text.toList := by
    rcases hlater with rfl | ⟨rfl, rfl⟩
    · exact markedText_behind rfl hlast text
    · rw [markedText_nil]
      simp
  have hinside : ∀ e ∈ later, e.span.Inside last.span := by
    rcases hlater with rfl | ⟨rfl, -⟩
    · intro e he
      rw [List.mem_singleton.mp he]
      exact inside_behind hlast
    · simp
  have hchildren := exchanged_children
    (front.map (fun e => walked site .plain e []) ++ [walked site .plain last later])
    hnested hmem (hwritten ▸ hrow) (by simp [Function.comp_def]) (by
      intro p hp
      rcases List.mem_append.mp hp with hp | hp
      · obtain ⟨e, he, rfl⟩ := List.mem_map.mp hp
        exact sound_walked rfl (hparts e (hmem (List.mem_append_left _ he))) (by simp)
      · rw [List.mem_singleton.mp hp]
        exact sound_walked rfl hlast hinside)
  rw [edits_walk_array hparts, hwritten]
  have hnone : (front.flatMap fun _ => ([] : List Edit)) = [] :=
    List.flatMap_eq_nil_iff.mpr (by simp)
  show Exchanged _ span.start (Chars.cut site.source span) _
  simpa [exchange_walked, markedText_nil, hmarked, List.flatMap_map, hnone,
    Function.comp_def] using hchildren

/-- The names of which an array has literals. -/
def presentNames (elements : List Tree) : List String :=
  elements.filterMap fun e => e.unspread.literal?

/-- A list gets the names that it lacks. -/
theorem extendNames_array (span : Span) (elements : List Tree) (names : List String)
    (quote : Quote) : extendNames (.node .array span elements) names quote =
      let missing := names.filter fun n => !(presentNames elements).contains n
      if missing.isEmpty then []
      else match (elements.filter isWritten).getLast? with
        | some last =>
          [.insert last.span.stop (String.join (missing.map fun n => ", " ++ Text.quoted n quote))]
        | none => [.replace span (nameArray missing quote)] := rfl

/-- Holes are no names. -/
theorem presentNames_of_holes (hnone : elements.filter isWritten = []) :
    presentNames elements = [] := by
  refine List.filterMap_eq_nil_iff.mpr ?_
  intro e he
  have hhole := List.filter_eq_nil_iff.mp hnone e he
  obtain ⟨kind, span, parts⟩ := e
  obtain rfl : kind = .hole := by
    unfold isWritten at hhole
    simpa [Script.Tree.kind] using hhole
  rfl

/-- Marking adds the names that are missing from a list of dynamic properties. -/
theorem listsNames_extendNames
    (hnested : (Script.Tree.node .array span elements).isNested site.source = true)
    (hrow : InRow (elements.filter isWritten)) {names : List String} (hnames : names ≠ [])
    (quote : Quote) :
    ListsNames site.source (rewritten site .plain) names quote (.node .array span elements)
      (Patch.within site.source span (edits (walk site .plain (.node .array span elements)) ++
        edits (extendNames (.node .array span elements) names quote))) := by
  obtain ⟨hfits, hparts⟩ := Tree.isNested_node.mp hnested
  rw [extendNames_array]
  rcases List.eq_nil_or_concat (elements.filter isWritten) with hnone | ⟨front, last, hwritten⟩
  · -- there are only holes, so all names are missing
    have hmissing : names.filter (fun n => !(presentNames elements).contains n) = names := by
      rw [presentNames_of_holes hnone]
      exact List.filter_eq_self.mpr fun _ _ => rfl
    have hedits : edits (walk site .plain (.node .array span elements)) = [] := by
      rw [edits_walk_array hparts, hnone]
      rfl
    have hnew : Patch.within site.source span [⟨span, nameArray names quote⟩] =
        (nameArray names quote).toList := Patch.within_replace hfits.cuts_span _
    rw [hedits, hmissing, hnone]
    simp only [List.isEmpty_iff, hnames, if_false, List.getLast?_nil]
    exact hnew ▸ .fresh hnone
  · rw [List.concat_eq_append] at hwritten
    have hall : ∀ n ∈ names, n ∈ names.filter (fun n => !(presentNames elements).contains n) ∨
        ∃ e ∈ elements, e.unspread.literal? = some n := by
      intro n hn
      by_cases hpresent : n ∈ presentNames elements
      · exact Or.inr (List.mem_filterMap.mp hpresent)
      · exact Or.inl (List.mem_filter.mpr ⟨hn, by simpa using hpresent⟩)
    refine .extended hwritten hall (recomposed_array hnested hrow hwritten ?_)
    rw [hwritten]
    dsimp only
    split
    · next hempty =>
      refine Or.inr ⟨rfl, ?_⟩
      rw [List.isEmpty_iff.mp hempty]
      rfl
    · rw [List.getLast?_append_of_ne_nil _ (by simp)]
      exact Or.inl rfl

end

/-! ## The call -/

/-- What becomes of the arguments of a call: each stays where it was, as it is rewritten for itself,
but for the marks that are added. Arguments that are not there are filled up with `null`; the flag
gets a bit more, and the list of dynamic properties gets the names. -/
inductive MarkedArguments (source : List Char) (own : Role → Tree → List Char)
    (names : List String) (quote : Quote) : List Tree → List (List Char) → Prop
  | two (tag props : Tree) :
      MarkedArguments source own names quote [tag, props]
        [own .plain tag, own .props props ++ (", null, 8, " ++ nameArray names quote).toList]
  | three (tag props content : Tree) :
      MarkedArguments source own names quote [tag, props, content]
        [own .plain tag, own .props props,
          own .plain content ++ (", 8, " ++ nameArray names quote).toList]
  | four (tag props content : Tree) {raw : String} {place : Span} {parts : List Tree} {flag : Nat}
      (hflag : AddsBit raw flag) :
      MarkedArguments source own names quote
        [tag, props, content, .node (.numLit raw) place parts]
        [own .plain tag, own .props props, own .plain content,
          (Nat.repr flag).toList ++ (", " ++ nameArray names quote).toList]
  | more (tag props content : Tree) {raw : String} {place : Span} {parts : List Tree} {flag : Nat}
      {existing : Tree} {list : List Char} (rest : List Tree) (hflag : AddsBit raw flag)
      (hlist : ListsNames source (own .plain) names quote existing list) :
      MarkedArguments source own names quote
        (tag :: props :: content :: .node (.numLit raw) place parts :: existing :: rest)
        (own .plain tag :: own .props props :: own .plain content :: (Nat.repr flag).toList ::
          list :: rest.map (own .plain))

section

variable {site : Site} {role : Role} {kind : Kind} {span : Span} {callee tag props : Tree}
  {rest : List Tree} {name : String}

/-- The edits of a call that is marked: those of its parts, then the marks. -/
theorem edits_walk_marked (hkind : IsCall kind) (hname : callee.path? = some name)
    (hneeds : NeedsMarks site name (tag :: props :: rest)) :
    edits (walk site role (.node kind span (callee :: tag :: props :: rest))) =
      edits (walk site .plain callee) ++ (edits (walk (site.within (some name)) .plain tag) ++
        (edits (walk (site.within (some name)) .props props) ++
          rest.flatMap fun t => edits (walk (site.within (some name)) .plain t))) ++
        edits (markDynamic (tag :: props :: rest)
          (dynamicNames (site.within (some name)) props.unspread) site.quote) := by
  obtain ⟨hlookup, hmaker, _, _, _, hargs, hnames⟩ := hneeds
  obtain ⟨rfl, rfl, rfl⟩ : _ ∧ _ ∧ _ := by simpa using hargs
  -- the properties are visited as such, all other arguments as plain expressions
  have hvisits : visits site role kind (callee :: tag :: props :: rest) =
      some (site, .plain) :: some (site.within (some name), .plain) ::
        some (site.within (some name), .props) ::
          rest.map fun _ => some (site.within (some name), .plain) := by
    have hcall : site.visit :: visitArguments site callee.path? (tag :: props :: rest) =
        some (site, .plain) :: some (site.within (some name), .plain) ::
          some (site.within (some name), .props) ::
            rest.map fun _ => some (site.within (some name), .plain) := by
      rw [hname]
      unfold visitArguments
      simp [hlookup, List.contains_iff_mem.mp hmaker, Site.visit, Role.plain]
    cases kind <;> first | exact hkind.elim | exact hcall
  have hmarks : leave site role kind (callee :: tag :: props :: rest) =
      markDynamic (tag :: props :: rest)
        (dynamicNames (site.within (some name)) props.unspread) site.quote := by
    have hcall : marks site callee (tag :: props :: rest) = markDynamic (tag :: props :: rest)
        (dynamicNames (site.within (some name)) props.unspread) site.quote := by
      rw [marks, hname]
      simp [hlookup, List.contains_iff_mem.mp hmaker, hnames]
    cases kind <;> first | exact hkind.elim | exact hcall
  have henter : enter site role kind span (callee :: tag :: props :: rest) = [] := by
    cases kind <;> first | rfl | exact hkind.elim
  rw [walk, henter, hvisits, hmarks, List.nil_append, edits_append]
  simp only [walkAll, edits_append, edits_walkAll_map]

/-- The marks of a call that lie each in an argument make of the call what they make of these. -/
theorem recomposed_of_marks (hkind : IsCall kind) (hname : callee.path? = some name)
    (hnested : (Script.Tree.node kind span (callee :: tag :: props :: rest)).isNested
      site.source = true)
    (hrow : inRow kind (callee :: tag :: props :: rest) = true)
    (hneeds : NeedsMarks site name (tag :: props :: rest)) {first : List Edit}
    {more : List (Tree × List Edit)} (hrest : more.map Prod.fst = rest)
    (hmarks : edits (markDynamic (tag :: props :: rest)
      (dynamicNames (site.within (some name)) props.unspread) site.quote) =
        first ++ more.flatMap Prod.snd)
    (hfirst : ∀ e ∈ first, e.span.Inside props.span)
    (hmore : ∀ p ∈ more, ∀ e ∈ p.2, e.span.Inside p.1.span) :
    Recomposed site.source (.node kind span (callee :: tag :: props :: rest))
      ((callee, rewritten site .plain callee) ::
        (tag, rewritten (site.within (some name)) .plain tag) ::
        (props, markedText (site.within (some name)) .props props first) ::
        more.map fun p => (p.1, markedText (site.within (some name)) .plain p.1 p.2))
      (rewritten site role (.node kind span (callee :: tag :: props :: rest))) := by
  obtain ⟨-, hparts⟩ := Tree.isNested_node.mp hnested
  have hinner : (site.within (some name)).source = site.source := rfl
  subst hrest
  -- each part is taken together with the marks that lie in it
  have hchildren := exchanged_children
    (walked site .plain callee [] :: walked (site.within (some name)) .plain tag [] ::
      walked (site.within (some name)) .props props first ::
      more.map fun p => walked (site.within (some name)) .plain p.1 p.2)
    hnested (List.Subset.refl _) (inRow_of_isCall hkind hrow) (by simp [Function.comp_def]) (by
      intro p hp
      simp only [List.mem_cons, List.mem_map] at hp
      rcases hp with rfl | rfl | rfl | ⟨q, hq, rfl⟩
      · exact sound_walked rfl (hparts callee (by simp)) (by simp)
      · exact sound_walked hinner (hparts tag (by simp)) (by simp)
      · exact sound_walked hinner (hparts props (by simp)) hfirst
      · have hmem : q.1 ∈ more.map Prod.fst := List.mem_map_of_mem hq
        exact sound_walked hinner (hparts q.1 (by simp [hmem])) (hmore q hq))
  have hedits : edits (walk site role
        (.node kind span (callee :: tag :: props :: more.map Prod.fst))) =
      edits (walk site .plain callee) ++ (edits (walk (site.within (some name)) .plain tag) ++
        (edits (walk (site.within (some name)) .props props) ++
          more.flatMap fun p => edits (walk (site.within (some name)) .plain p.1))) ++
        (first ++ more.flatMap Prod.snd) := by
    rw [edits_walk_marked hkind hname hneeds, hmarks, List.flatMap_map]
  show Exchanged _ span.start (Chars.cut site.source span) (Patch.within site.source span _)
  rw [hedits]
  simpa [exchange_walked, hinner, markedText_nil, List.flatMap_map, Function.comp_def]
    using hchildren

/-- What is no spread is left as it is. -/
theorem unspread_of_ne {t : Tree} (h : t.kind ≠ .spread) : t.unspread = t := by
  obtain ⟨kind, span, children⟩ := t
  rw [Script.Tree.unspread.eq_def]
  split
  · next heq =>
    obtain ⟨rfl, -, -⟩ := Script.Tree.node.inj heq
    exact absurd rfl h
  · rfl

/-- A number is exchanged for the new flag. -/
theorem markedText_number {source : List Char} {s : Site} (hsource : s.source = source)
    {raw : String} {place : Span} {parts : List Tree}
    (hnested : (Script.Tree.node (.numLit raw) place parts).isNested source = true)
    (text behind : String) :
    markedText s .plain (.node (.numLit raw) place parts) [⟨place, text⟩] = text.toList ∧
      markedText s .plain (.node (.numLit raw) place parts)
        [⟨place, text⟩, ⟨Span.point place.stop, behind⟩] = text.toList ++ behind.toList := by
  subst hsource
  obtain ⟨hfits, -⟩ := Tree.isNested_node.mp hnested
  obtain rfl := List.isEmpty_iff.mp (hfits.leaf rfl)
  have hcuts := hfits.cuts_span
  have hreplace := Patch.within_replace hcuts text
  -- the number is replaced as a whole, so whatever is put in behind it stays behind
  have hself : ∀ e ∈ [(⟨place, text⟩ : Edit)], e.span.Inside place := by
    intro e he
    rw [List.mem_singleton.mp he]
    exact ⟨Nat.le_refl _, hcuts.order, Nat.le_refl _⟩
  have hbehind := Patch.within_behind hcuts hself behind
  rw [hreplace] at hbehind
  exact ⟨hreplace, hbehind⟩

/-- The flag of a call that is marked is a number, and its list is an array. -/
theorem flagsFit_of_needsMarks {source : List Char} {args : List Tree} (hkind : IsCall kind)
    (hname : callee.path? = some name) (hfits : Fits source kind span (callee :: args))
    (hneeds : NeedsMarks site name args) : flagsFit args = true := by
  have hmakes : makesNode callee = true := by
    rw [makesNode, hname]
    exact hneeds.maker
  have hcall : callFits kind (callee :: args) = (!makesNode callee || flagsFit args) := by
    cases kind <;> first | rfl | exact hkind.elim
  have hflags := hfits.flags
  rwa [hcall, hmakes, Bool.not_true, Bool.false_or] at hflags

/-- The call is put together again: its arguments as they are rewritten and marked, and the callee
with them. -/
def RecomposedCall (site : Site) (role : Role) (kind : Kind) (span : Span)
    (callee tag props : Tree) (rest : List Tree) (name : String) : Prop :=
  ∃ news, MarkedArguments site.source (rewritten (site.within (some name)))
      (dynamicNames (site.within (some name)) props) site.quote (tag :: props :: rest) news ∧
    Recomposed site.source (.node kind span (callee :: tag :: props :: rest))
      ((callee, rewritten site .plain callee) :: (tag :: props :: rest).zip news)
      (rewritten site role (.node kind span (callee :: tag :: props :: rest)))

/-- A call without content and flag gets both behind its properties. -/
theorem recomposedCall_two (hkind : IsCall kind) (hname : callee.path? = some name)
    (hnested : (Script.Tree.node kind span [callee, tag, props]).isNested site.source = true)
    (hrow : inRow kind [callee, tag, props] = true) (hprops : props.unspread = props)
    (hneeds : NeedsMarks site name [tag, props]) :
    RecomposedCall site role kind span callee tag props [] name := by
  have hparts : props.isNested site.source = true :=
    (Tree.isNested_node.mp hnested).2 props (by simp)
  -- the call is written anew with three arguments more, the first of them null
  have hcall := @recomposed_of_marks site role kind span callee tag props [] name hkind hname
    hnested hrow hneeds
    [⟨Span.point props.span.stop,
      ", null, 8, " ++ nameArray (dynamicNames (site.within (some name)) props) site.quote⟩]
    [] rfl (by rw [hprops]; rfl) (by simpa using inside_behind hparts) (by simp)
  rw [markedText_behind (rfl : (site.within (some name)).source = site.source) hparts] at hcall
  exact ⟨_, .two tag props, hcall⟩

/-- A call without a flag gets it behind its content. -/
theorem recomposedCall_three {content : Tree} (hkind : IsCall kind)
    (hname : callee.path? = some name)
    (hnested : (Script.Tree.node kind span [callee, tag, props, content]).isNested site.source =
      true)
    (hrow : inRow kind [callee, tag, props, content] = true) (hprops : props.unspread = props)
    (hneeds : NeedsMarks site name [tag, props, content]) :
    RecomposedCall site role kind span callee tag props [content] name := by
  have hcontent : content.isNested site.source = true :=
    (Tree.isNested_node.mp hnested).2 content (by simp)
  -- the flag and the names are put in behind the content
  have hcall := @recomposed_of_marks site role kind span callee tag props [content] name hkind hname
    hnested hrow hneeds [] [(content, [⟨Span.point content.span.stop,
      ", 8, " ++ nameArray (dynamicNames (site.within (some name)) props) site.quote⟩])] rfl
    (by rw [hprops]; rfl) (by simp) (by simpa using inside_behind hcontent)
  rw [markedText_nil] at hcall
  simp only [List.map_cons, List.map_nil,
    markedText_behind (rfl : (site.within (some name)).source = site.source) hcontent] at hcall
  exact ⟨_, .three tag props content, hcall⟩

/-- A call without a list of names has its flag exchanged and gets the list behind it. -/
theorem recomposedCall_four {content : Tree} {raw : String} {place : Span} {parts : List Tree}
    (hkind : IsCall kind) (hname : callee.path? = some name)
    (hnested : (Script.Tree.node kind span
      [callee, tag, props, content, .node (.numLit raw) place parts]).isNested site.source = true)
    (hrow : inRow kind [callee, tag, props, content, .node (.numLit raw) place parts] = true)
    (hprops : props.unspread = props)
    (hneeds : NeedsMarks site name [tag, props, content, .node (.numLit raw) place parts]) :
    RecomposedCall site role kind span callee tag props
      [content, .node (.numLit raw) place parts] name := by
  have hflag : (Script.Tree.node (.numLit raw) place parts).isNested site.source = true :=
    (Tree.isNested_node.mp hnested).2 _ (by simp)
  have hinside := Tree.inside_span hflag
  -- the flag is written anew, and the array of names is put in behind it
  have hcall := @recomposed_of_marks site role kind span callee tag props
    [content, .node (.numLit raw) place parts] name hkind hname hnested hrow hneeds []
    [(content, []), (.node (.numLit raw) place parts,
      [⟨place, Nat.repr (withPropsFlag (.node (.numLit raw) place parts))⟩,
        ⟨Span.point place.stop,
          ", " ++ nameArray (dynamicNames (site.within (some name)) props) site.quote⟩])] rfl
    (by rw [hprops]; rfl) (by simp) (by simpa using ⟨hinside, inside_behind hflag⟩)
  rw [markedText_nil] at hcall
  simp only [List.map_cons, List.map_nil, markedText_nil,
    (markedText_number (rfl : (site.within (some name)).source = site.source) hflag _ _).2] at hcall
  exact ⟨_, .four tag props content (addsBit_withPropsFlag raw place parts), hcall⟩

/-- A call with a flag and a list has the one exchanged and the other extended. -/
theorem recomposedCall_more {content : Tree} {raw : String} {place array : Span}
    {parts elements : List Tree} (hkind : IsCall kind) (hname : callee.path? = some name)
    (hnested : (Script.Tree.node kind span (callee :: tag :: props :: content ::
      .node (.numLit raw) place parts :: .node .array array elements :: rest)).isNested
        site.source = true)
    (hrow : isInRow (.node kind span (callee :: tag :: props :: content ::
      .node (.numLit raw) place parts :: .node .array array elements :: rest)) = true)
    (hprops : props.unspread = props)
    (hnames : dynamicNames (site.within (some name)) props ≠ [])
    (hneeds : NeedsMarks site name (tag :: props :: content ::
      .node (.numLit raw) place parts :: .node .array array elements :: rest)) :
    RecomposedCall site role kind span callee tag props
      (content :: .node (.numLit raw) place parts :: .node .array array elements :: rest) name := by
  obtain ⟨-, hparts⟩ := Tree.isNested_node.mp hnested
  obtain ⟨hrow, hrows⟩ := isInRow_node.mp hrow
  have hflag : (Script.Tree.node (.numLit raw) place parts).isNested site.source = true :=
    hparts _ (by simp)
  have hexisting : (Script.Tree.node .array array elements).isNested site.source = true :=
    hparts _ (by simp)
  have hlist := @listsNames_extendNames (site.within (some name)) _ _ hexisting
    (of_decide_eq_true (isInRow_node.mp (hrows (.node .array array elements) (by simp))).1) _
    hnames site.quote
  -- each mark lies in the argument that it is about
  have hinside := Tree.inside_span hflag
  have hadded : ∀ e ∈ edits (extendNames (.node .array array elements)
      (dynamicNames (site.within (some name)) props) site.quote), e.span.Inside array :=
    fun e he => (marksArgument_names hexisting
      (fun c hc => editsFit_walk c (Tree.isNested_of_mem hexisting hc)) _ _ e he).1
  have hnone : (rest.map fun t => (t, ([] : List Edit))).flatMap Prod.snd = [] :=
    List.flatMap_eq_nil_iff.mpr (by simp)
  have hmarks : edits (markDynamic (tag :: props :: content :: .node (.numLit raw) place parts ::
        .node .array array elements :: rest) (dynamicNames (site.within (some name)) props.unspread)
        site.quote) =
      ⟨place, Nat.repr (withPropsFlag (.node (.numLit raw) place parts))⟩ ::
        edits (extendNames (.node .array array elements)
          (dynamicNames (site.within (some name)) props) site.quote) := by
    rw [hprops]
    rfl
  have hcall := @recomposed_of_marks site role kind span callee tag props _ name hkind hname
    hnested hrow hneeds [] ((content, []) :: (.node (.numLit raw) place parts,
      [⟨place, Nat.repr (withPropsFlag (.node (.numLit raw) place parts))⟩]) ::
    (.node .array array elements, edits (extendNames (.node .array array elements)
      (dynamicNames (site.within (some name)) props) site.quote)) ::
    rest.map fun t => (t, [])) (by simp [Function.comp_def]) (by simp [hmarks, hnone])
    (by simp) (by
      intro p hp
      simp only [List.mem_cons, List.mem_map] at hp
      rcases hp with rfl | rfl | rfl | ⟨t, -, rfl⟩
      · simp
      · intro e he
        rw [List.mem_singleton.mp he]
        exact hinside
      · exact hadded
      · simp)
  rw [markedText_nil] at hcall
  simp only [List.map_cons, List.map_map, Function.comp_def, markedText_nil,
    (markedText_number (rfl : (site.within (some name)).source = site.source) hflag _ "").1] at hcall
  refine ⟨_, .more tag props content rest (addsBit_withPropsFlag raw place parts) hlist, ?_⟩
  simp only [List.zip_cons_cons, ← List.map_prod_left_eq_zip]
  exact hcall

/-- A call of a node maker whose properties are marked as dynamic: what becomes of its arguments. -/
theorem recomposed_call (hkind : IsCall kind) (hname : callee.path? = some name)
    (hnested : (Script.Tree.node kind span (callee :: tag :: props :: rest)).isNested
      site.source = true)
    (hrow : isInRow (.node kind span (callee :: tag :: props :: rest)) = true)
    (hspread : ∀ a ∈ tag :: props :: rest, a.kind ≠ .spread)
    (hneeds : NeedsMarks site name (tag :: props :: rest)) :
    ∃ news, MarkedArguments site.source (rewritten (site.within (some name)))
        (dynamicNames (site.within (some name)) props) site.quote (tag :: props :: rest) news ∧
      Recomposed site.source (.node kind span (callee :: tag :: props :: rest))
        ((callee, rewritten site .plain callee) :: (tag :: props :: rest).zip news)
        (rewritten site role (.node kind span (callee :: tag :: props :: rest))) := by
  obtain ⟨hfits, -⟩ := Tree.isNested_node.mp hnested
  have hparts := (isInRow_node.mp hrow).1
  have hprops : props.unspread = props := unspread_of_ne (hspread props (by simp))
  have hflags := flagsFit_of_needsMarks hkind hname hfits hneeds
  have hnames : dynamicNames (site.within (some name)) props ≠ [] := by
    obtain ⟨-, -, _, _, _, hargs, hnames⟩ := hneeds
    obtain ⟨rfl, rfl, rfl⟩ : _ ∧ _ ∧ _ := by simpa using hargs
    rwa [hprops] at hnames
  -- what is written depends on which of content, flag and list are there
  match rest with
  | [] => exact recomposedCall_two hkind hname hnested hparts hprops hneeds
  | [content] => exact recomposedCall_three hkind hname hnested hparts hprops hneeds
  | [content, flag] =>
    obtain ⟨raw, place, parts, hnumber⟩ := exists_number_of_flagsFit hflags
    rw [unspread_of_ne (hspread flag (by simp))] at hnumber
    subst hnumber
    exact recomposedCall_four hkind hname hnested hparts hprops hneeds
  | content :: flag :: existing :: rest =>
    obtain ⟨raw, place, parts, hnumber⟩ := exists_number_of_flagsFit hflags
    obtain ⟨array, elements, harray⟩ := exists_array_of_flagsFit hflags
    rw [unspread_of_ne (hspread flag (by simp))] at hnumber
    rw [unspread_of_ne (hspread existing (by simp))] at harray
    subst hnumber harray
    exact recomposedCall_more hkind hname hnested hrow hprops hnames hneeds

end

/-- A call with a flag and a list. -/
def flaggedCall : String :=
  "_createVNode(\x22div\x22, \x7btitle: \x22标题\x22\x7d, null, 9, [\x22id\x22, ])"

/-- A site for a walk over the call. -/
def flaggedSite (h : Harvester) : Site :=
  { harvester := h, source := flaggedCall.toList, quote := .double }

/-- Whether the call meets what is asked of a call. -/
def meetsMarks (h : Harvester) : Bool :=
  match parseExpr flaggedCall with
  | .ok (.node (.call chained) span (callee :: tag :: props :: rest)) =>
    callee.path? == some "_createVNode" &&
      (Script.Tree.node (.call chained) span (callee :: tag :: props :: rest)).isNested
        flaggedCall.toList &&
      isInRow (.node (.call chained) span (callee :: tag :: props :: rest)) &&
      (tag :: props :: rest).all (fun a => a.kind != .spread) &&
      !h.exclusion.isLookupCall "_createVNode" &&
      nodeMakers.contains (Exclusion.terminalSegment "_createVNode") &&
      !(dynamicNames ((flaggedSite h).within (some "_createVNode")) props.unspread).isEmpty
  | _ => false

/-- A call for which what becomes of it is shown. -/
theorem recomposed_call_flagged : ∃ h kind span callee tag props rest,
    Harvester.ofOptions { replaceTexts := true, autoImport := false } = .ok h ∧
      parseExpr flaggedCall = .ok (.node kind span (callee :: tag :: props :: rest)) ∧
      ∃ news, MarkedArguments flaggedCall.toList
          (rewritten ((flaggedSite h).within (some "_createVNode")))
          (dynamicNames ((flaggedSite h).within (some "_createVNode")) props) .double
          (tag :: props :: rest) news ∧
        Recomposed flaggedCall.toList (.node kind span (callee :: tag :: props :: rest))
          ((callee, rewritten (flaggedSite h) .plain callee) :: (tag :: props :: rest).zip news)
          (rewritten (flaggedSite h) .plain
            (.node kind span (callee :: tag :: props :: rest))) := by
  have heval : (Harvester.ofOptions { replaceTexts := true, autoImport := false }).toOption.map
      meetsMarks = some true := by
    decide +kernel
  obtain ⟨h, hh, hcall⟩ := exists_ok_of_toOption_map heval
  -- the evaluation has checked every hypothesis
  unfold meetsMarks at hcall
  split at hcall
  · next chained span callee tag props rest hparse =>
    simp only [Bool.and_eq_true, beq_iff_eq, List.all_eq_true, Bool.not_eq_true', bne_iff_ne,
      List.isEmpty_eq_false_iff] at hcall
    obtain ⟨⟨⟨⟨⟨⟨hname, hnested⟩, hrow⟩, hspread⟩, hlookup⟩, hmaker⟩, hnames⟩ := hcall
    have hkind : IsCall (.call chained) := trivial
    have hneeds : NeedsMarks (flaggedSite h) "_createVNode" (tag :: props :: rest) :=
      ⟨hlookup, hmaker, tag, props, rest, rfl, hnames⟩
    exact ⟨h, _, span, callee, tag, props, rest, hh, hparse,
      recomposed_call hkind hname hnested hrow hspread hneeds⟩
  · cases hcall

/-! ## Lists that are no arrays -/

/-- The names in a list of dynamic properties, given what the variables in it stand for. -/
def dynamicList (env : String → List String) : Tree → List String
  | .node .array _ elements => elements.flatMap fun
    | .node .spread _ [.node (.ident n) _ _] => env n
    | e => e.literal?.toList
  | .node (.ident n) _ _ => env n
  | _ => []

/-- The fifth argument of a call. -/
def fifthArgument? (code : String) : Option Tree :=
  match parseExpr code with
  | .ok (.node (.call _) _ children) => children[5]?
  | _ => none

/-- Rewriting a call keeps the dynamic properties that are listed in it. -/
def KeepsList (h : Harvester) (code path : String) : Prop :=
  ∀ new old list, (h.harvestFile code path).code = some new → fifthArgument? code = some old →
    fifthArgument? new = some list → ∀ env, dynamicList env old ⊆ dynamicList env list

/-- A call whose list of dynamic properties is a variable. -/
def hoistedCall : String :=
  "_createVNode(\x22div\x22, \x7btitle: \x22标题\x22\x7d, null, 8, _hoisted_1)"

/-- A variable is exchanged for an array of the new names only. -/
theorem not_keepsList_hoisted : ∃ h,
    Harvester.ofOptions { replaceTexts := true, autoImport := false } = .ok h ∧
      ¬KeepsList h hoistedCall "a.js" := by
  have heval : (Harvester.ofOptions { replaceTexts := true, autoImport := false }).toOption.map
      (fun h => (h.harvestFile hoistedCall "a.js").code.map fun new =>
        ((fifthArgument? hoistedCall).map (dynamicList fun _ => ["id"]),
          (fifthArgument? new).map (dynamicList fun _ => ["id"]))) =
      some (some (some ["id"], some ["title"])) := by
    decide +kernel
  obtain ⟨h, hh, hlists⟩ := exists_ok_of_toOption_map heval
  obtain ⟨new, hnew, hlists⟩ := Option.map_eq_some_iff.mp hlists
  obtain ⟨hold, hlist⟩ := Prod.mk.inj hlists
  obtain ⟨old, hold, hbefore⟩ := Option.map_eq_some_iff.mp hold
  obtain ⟨list, hlist, hafter⟩ := Option.map_eq_some_iff.mp hlist
  refine ⟨h, hh, ?_⟩
  intro hkeeps
  have hsubset := hkeeps new old list hnew hold hlist fun _ => ["id"]
  rw [hbefore, hafter] at hsubset
  exact absurd (hsubset List.mem_cons_self) (by decide)

end TextHarvest.Harvest
