import TextHarvest.Proofs.Harvest.Texts

/-!
# The places of a walk

A walk takes an action exactly when it gets to a place where the action is taken. Here the places
are spelled out: those that a walk reaches from the root of a tree, those that hold a text which is
taken, and the two others at which a key is filed, a lookup whose key is known and a wrapper element
that still has its message.

Main results:

* `mem_walk_iff` — the actions of a walk are those of the places it reaches.
* `file_mem_walk_iff` — what a walk files, place by place.
* `edits_walk_eq_nil_iff` — when a walk leaves a source alone.
-/

namespace TextHarvest.Harvest

open Script

/-! ## Reached places -/

/-- A walk that starts at a tree with a site and a role gets to another tree, with its own site and
role there. -/
inductive Reaches : Site → Role → Tree → Site → Role → Tree → Prop
  | here (site : Site) (role : Role) (t : Tree) : Reaches site role t site role t
  | child {site s s' : Site} {role r r' : Role} {kind : Kind} {span : Span}
      {children : List Tree} {c t : Tree}
      (hchild : (some (s, r), c) ∈ (visits site role kind children).zip children)
      (hrest : Reaches s r c s' r' t) : Reaches site role (.node kind span children) s' r' t

/-- An action of some trees is one of the first or of the others. -/
theorem mem_walkAll_cons {a : Action} {v : Visit} {vs : List Visit} {t : Tree} {ts : List Tree} :
    a ∈ walkAll (v :: vs) (t :: ts) ↔
      (∃ s r, v = some (s, r) ∧ a ∈ walk s r t) ∨ a ∈ walkAll vs ts := by
  -- a child that is not visited adds nothing
  cases v with
  | none =>
    rw [walkAll]
    simp
  | some visit =>
    obtain ⟨s, r⟩ := visit
    rw [walkAll, List.mem_append]
    constructor
    · rintro (hmem | hmem)
      · exact Or.inl ⟨s, r, rfl, hmem⟩
      · exact Or.inr hmem
    · rintro (⟨s', r', heq, hmem⟩ | hmem)
      · cases heq
        exact Or.inl hmem
      · exact Or.inr hmem

/-- The actions of a walk over some trees are those of the walks over each. -/
theorem mem_walkAll_iff {a : Action} {vs : List Visit} {ts : List Tree} :
    a ∈ walkAll vs ts ↔ ∃ s r t, (some (s, r), t) ∈ vs.zip ts ∧ a ∈ walk s r t := by
  induction vs generalizing ts with
  | nil => simp
  | cons v vs ih =>
    cases ts with
    | nil => simp [walkAll]
    | cons t ts =>
      rw [mem_walkAll_cons, ih, List.zip_cons_cons]
      constructor
      · rintro (⟨s, r, rfl, hmem⟩ | ⟨s, r, t', hzip, hmem⟩)
        · exact ⟨s, r, t, List.mem_cons_self, hmem⟩
        · exact ⟨s, r, t', List.mem_cons_of_mem _ hzip, hmem⟩
      · rintro ⟨s, r, t', hzip, hmem⟩
        rcases List.mem_cons.mp hzip with heq | hzip
        · cases heq
          exact Or.inl ⟨s, r, rfl, hmem⟩
        · exact Or.inr ⟨s, r, t', hzip, hmem⟩

/-- An action is taken at a place itself, not below it. -/
def TakenAt (a : Action) (site : Site) (role : Role) : Tree → Prop
  | .node kind span children =>
    a ∈ enter site role kind span children ∨ a ∈ leave site role kind children

mutual

/-- An action of a walk is taken at a place that it reaches. -/
theorem exists_reaches_of_mem_walk {a : Action} :
    ∀ (site : Site) (role : Role) (t : Tree), a ∈ walk site role t →
      ∃ s r p, Reaches site role t s r p ∧ TakenAt a s r p
  | site, role, .node kind span children, hmem => by
    rw [walk, List.mem_append, List.mem_append] at hmem
    rcases hmem with (hmem | hmem) | hmem
    · exact ⟨site, role, _, .here .., Or.inl hmem⟩
    · -- the action is taken below one of the children
      obtain ⟨s, r, c, s', r', p, hzip, hreach, htaken⟩ :=
        exists_reaches_of_mem_walkAll _ children hmem
      exact ⟨s', r', p, .child hzip hreach, htaken⟩
    · exact ⟨site, role, _, .here .., Or.inr hmem⟩

/-- The same for some trees. -/
theorem exists_reaches_of_mem_walkAll {a : Action} :
    ∀ (vs : List Visit) (ts : List Tree), a ∈ walkAll vs ts →
      ∃ s r c s' r' p, (some (s, r), c) ∈ vs.zip ts ∧ Reaches s r c s' r' p ∧ TakenAt a s' r' p
  | [], ts, hmem => by simp at hmem
  | _ :: _, [], hmem => by simp [walkAll] at hmem
  | v :: vs, t :: ts, hmem => by
    rcases mem_walkAll_cons.mp hmem with ⟨s, r, rfl, hwalk⟩ | hmem
    · obtain ⟨s', r', p, hreach, htaken⟩ := exists_reaches_of_mem_walk s r t hwalk
      exact ⟨s, r, t, s', r', p, List.mem_cons_self, hreach, htaken⟩
    · obtain ⟨s, r, c, s', r', p, hzip, hrest⟩ := exists_reaches_of_mem_walkAll vs ts hmem
      exact ⟨s, r, c, s', r', p, List.mem_cons_of_mem _ hzip, hrest⟩

end

/-- The actions of a walk are those of the places it reaches. -/
theorem mem_walk_iff {a : Action} {site : Site} {role : Role} {t : Tree} :
    a ∈ walk site role t ↔ ∃ s r p, Reaches site role t s r p ∧ TakenAt a s r p := by
  constructor
  · exact exists_reaches_of_mem_walk site role t
  · -- the other way round, by induction on how the place is reached
    rintro ⟨s, r, p, hreach, htaken⟩
    induction hreach with
    | here site role t =>
      cases t with
      | node kind span children =>
        rw [walk, List.mem_append, List.mem_append]
        rcases htaken with hmem | hmem
        · exact Or.inl (Or.inl hmem)
        · exact Or.inr hmem
    | child hchild _ ih =>
      rw [walk, List.mem_append, List.mem_append]
      exact Or.inl (Or.inr (mem_walkAll_iff.mpr ⟨_, _, _, hchild, ih htaken⟩))

/-! ## Places that hold a text -/

/-- A chunk of a template holds a text that is taken. -/
structure HoldsText (site : Site) (c : Chunk) (cooked : String) : Prop where
  cooked_eq : c.cooked = some cooked
  accepts : site.harvester.accepts (Text.trim cooked) = true
  raw_eq : Chars.slice? site.source c.span = some c.raw.toList
  written : (writtenSpan? c.raw.toList cooked.toList).isSome = true

/-- A place holds a text that is taken: a literal, the value of an attribute, the constant argument
of a lookup that is no known key, a chunk of a template, or the text of an element. -/
inductive Takes (site : Site) : Role → Tree → String → Prop
  | literal {role : Role} {value : String} {span : Span} {children : List Tree}
      (hrole : ∀ count, role ≠ .lookup count) (htakes : site.takesLiteral value = true) :
      Takes site role (.node (.strLit (some value)) span children) (Text.trim value)
  | markup {role : Role} {value : String} {span : Span} {children : List Tree}
      (htakes : site.takesLiteral value = true) :
      Takes site role (.node (.markupString value) span children) (Text.trim value)
  | argument {count : Nat} {t : Tree} {value : String} (hconstant : t.constant? = some value)
      (hknown : site.harvester.knownText (Text.trim value) = none)
      (haccepts : site.harvester.accepts (Text.trim value) = true) :
      Takes site (.lookup count) t (Text.trim value)
  | chunk {role : Role} {chunks : List Chunk} {span : Span} {substitutions : List Tree}
      {c : Chunk} {cooked : String}
      (hrole : ∀ count, role = .lookup count → substitutions ≠ [])
      (htakes : site.takesTexts = true) (hmem : c ∈ chunks) (hholds : HoldsText site c cooked) :
      Takes site role (.node (.template chunks) span substitutions) (Text.trim cooked)
  | text {role : Role} {span : Span} {children : List Tree} {raw : List Char}
      (htakes : site.takesTexts = true) (hraw : Chars.slice? site.source span = some raw)
      (hinner : (Chars.trimmedSpan? raw).isSome = true)
      (haccepts : site.harvester.accepts
        (Text.decodeEntities (Text.collapse (String.ofList raw))) = true) :
      Takes site role (.node .markupText span children)
        (Text.decodeEntities (Text.collapse (String.ofList raw)))

/-- The message of a wrapper element, without the blanks at its ends. -/
def message? (attributes : List Tree) : Option String :=
  ((Site.lastAttribute "msg" attributes).map fun m => Text.trim m.1).filter (· ≠ "")

/-- The key of the message of a wrapper element: its identifier, or else the key of the message. -/
def messageKey (site : Site) (attributes : List Tree) (message : String) : String :=
  ((Site.lastAttribute "id" attributes).map (·.1)).getD (site.harvester.keyFor message)

/-- What is filed at a place: a text that it takes, a key that is known, or the message of a wrapper
element. -/
inductive Files (site : Site) : Role → Tree → String → String → Prop
  | taken {role : Role} {t : Tree} {text : String} (htakes : Takes site role t text) :
      Files site role t (site.harvester.keyFor text) text
  | known {count : Nat} {t : Tree} {value text : String} (hconstant : t.constant? = some value)
      (hne : Text.trim value ≠ "")
      (hknown : site.harvester.knownText (Text.trim value) = some text) :
      Files site (.lookup count) t (Text.trim value) text
  | message {role : Role} {place span : Span} {attributes : List Tree} {message : String}
      (hmessage : message? attributes = some message) :
      Files site role (.node (.element (.plain site.options.jsxElement place)) span attributes)
        (messageKey site attributes message) message

section Single

variable {site : Site} {k v : String}

/-- What a literal files. -/
theorem file_mem_literal {span : Span} {value : Option String} {slot : Slot} :
    .file k v ∈ site.literal span value slot ↔
      ∃ x, value = some x ∧ site.takesLiteral x = true ∧ k = site.harvester.keyFor (Text.trim x) ∧
        v = Text.trim x := by
  cases value with
  | none => simp [Site.literal]
  | some x =>
    by_cases htakes : site.takesLiteral x = true
    · simp [Site.literal, htakes, Site.file, Action.replace]
    · simp [Site.literal, htakes]

/-- What a constant argument files: a known key with its text, or a text under its own key. -/
theorem file_mem_constantArgument {span : Span} {value : Option String} {count : Nat} :
    .file k v ∈ site.constantArgument span value count ↔
      ∃ x, value = some x ∧ Text.trim x ≠ "" ∧
        ((site.harvester.knownText (Text.trim x) = some v ∧ k = Text.trim x) ∨
          (site.harvester.knownText (Text.trim x) = none ∧
            site.harvester.accepts (Text.trim x) = true ∧
            k = site.harvester.keyFor (Text.trim x) ∧ v = Text.trim x)) := by
  cases value with
  | none => simp [Site.constantArgument]
  | some x =>
    by_cases hempty : Text.trim x = ""
    · simp [Site.constantArgument, hempty]
    · -- a known key is filed again, an unknown one only when it is accepted
      cases hknown : site.harvester.knownText (Text.trim x) with
      | some known =>
        simp only [Site.constantArgument, Option.map_some, beq_iff_eq, hempty, if_false, hknown,
          List.mem_singleton, Action.file.injEq, Option.some.injEq, reduceCtorEq, false_and,
          or_false, exists_eq_left', ne_eq, not_false_eq_true, true_and]
        constructor
        · rintro ⟨rfl, rfl⟩
          exact ⟨rfl, rfl⟩
        · rintro ⟨rfl, rfl⟩
          exact ⟨rfl, rfl⟩
      | none =>
        by_cases haccepts : site.harvester.accepts (Text.trim x) = true
        · simp [Site.constantArgument, hempty, hknown, haccepts, Site.file, Action.replace]
        · simp [Site.constantArgument, hempty, hknown, haccepts]

/-- What a chunk of a template files. -/
theorem file_mem_chunk {c : Chunk} :
    .file k v ∈ site.chunk c ↔ ∃ cooked, HoldsText site c cooked ∧
      k = site.harvester.keyFor (Text.trim cooked) ∧ v = Text.trim cooked := by
  constructor
  · intro hmem
    rw [Site.chunk] at hmem
    split at hmem
    · cases hmem
    · rename_i cooked hcooked
      dsimp only at hmem
      split at hmem
      · -- the chunk is cooked, accepted and stands in the source as it was read
        rename_i hboth
        rw [Bool.and_eq_true, beq_iff_eq] at hboth
        split at hmem
        · rename_i inner hwritten
          simp only [Site.file, Action.replace, List.cons_append, List.nil_append, List.mem_cons,
            Action.file.injEq, reduceCtorEq, List.not_mem_nil, or_false] at hmem
          exact ⟨cooked, ⟨hcooked, hboth.1, hboth.2, by rw [hwritten]; rfl⟩, hmem⟩
        · cases hmem
      · cases hmem
  · rintro ⟨cooked, ⟨hcooked, haccepts, hraw, hwritten⟩, rfl, rfl⟩
    obtain ⟨inner, hinner⟩ := Option.isSome_iff_exists.mp hwritten
    simp [Site.chunk, hcooked, haccepts, hraw, hinner, Site.file]

/-- What a template files. -/
theorem file_mem_chunks {chunks : List Chunk} :
    .file k v ∈ site.chunks chunks ↔ site.takesTexts = true ∧ ∃ c ∈ chunks, ∃ cooked,
      HoldsText site c cooked ∧ k = site.harvester.keyFor (Text.trim cooked) ∧
        v = Text.trim cooked := by
  rw [Site.chunks]
  by_cases htakes : site.takesTexts = true
  · simp only [htakes, if_true, List.mem_flatMap, file_mem_chunk, true_and]
  · simp [htakes]

/-- What the text of an element files. -/
theorem file_mem_elementText {span : Span} :
    .file k v ∈ site.elementText span ↔ site.takesTexts = true ∧ ∃ raw,
      Chars.slice? site.source span = some raw ∧ (Chars.trimmedSpan? raw).isSome = true ∧
      site.harvester.accepts (Text.decodeEntities (Text.collapse (String.ofList raw))) = true ∧
      k = site.harvester.keyFor (Text.decodeEntities (Text.collapse (String.ofList raw))) ∧
      v = Text.decodeEntities (Text.collapse (String.ofList raw)) := by
  constructor
  · intro hmem
    rw [Site.elementText] at hmem
    split at hmem
    · rename_i htakes
      split at hmem
      · cases hmem
      · rename_i raw hraw
        dsimp only at hmem
        split at hmem
        · -- the range decides where the call goes, the entry does not depend on it
          rename_i inner hinner
          split at hmem
          · rename_i haccepts
            refine ⟨htakes, raw, hraw, by rw [hinner]; rfl, haccepts, ?_⟩
            rcases List.mem_append.mp hmem with hmem | hmem
            · simpa [Site.file] using hmem
            · split at hmem <;> simp [Action.replace] at hmem
          · cases hmem
        · cases hmem
    · cases hmem
  · rintro ⟨htakes, raw, hraw, hinner, haccepts, rfl, rfl⟩
    obtain ⟨inner, hinner⟩ := Option.isSome_iff_exists.mp hinner
    simp [Site.elementText, htakes, hraw, hinner, haccepts, Site.file]

/-- The message of an element is the trimmed text of its last attribute of that name. -/
theorem message?_eq_some_iff {attributes : List Tree} {message : String} :
    message? attributes = some message ↔ ∃ m span,
      Site.lastAttribute "msg" attributes = some (m, span) ∧ message = Text.trim m ∧
        Text.trim m ≠ "" := by
  rw [message?, Option.filter_eq_some_iff]
  cases hmsg : Site.lastAttribute "msg" attributes with
  | none => simp
  | some m =>
    obtain ⟨m, span⟩ := m
    simp only [Option.map_some, Option.some.injEq, Prod.mk.injEq, decide_eq_true_eq]
    constructor
    · rintro ⟨rfl, hne⟩
      exact ⟨m, span, ⟨rfl, rfl⟩, rfl, hne⟩
    · rintro ⟨m', span', ⟨rfl, rfl⟩, rfl, hne⟩
      exact ⟨rfl, hne⟩

/-- Without a message nothing is done at a wrapper element. -/
theorem wrapperElement_of_message?_eq_none {nameEnd : Nat} {attributes : List Tree}
    (hnone : message? attributes = none) : site.wrapperElement nameEnd attributes = [] := by
  apply wrapperElement_of_no_message
  intro m span hmessage
  by_cases hempty : Text.trim m = ""
  · exact hempty
  · rw [message?_eq_some_iff.mpr ⟨m, span, hmessage, rfl, hempty⟩] at hnone
    cases hnone

/-- What a wrapper element files. -/
theorem file_mem_wrapperElement {nameEnd : Nat} {attributes : List Tree} :
    .file k v ∈ site.wrapperElement nameEnd attributes ↔
      message? attributes = some v ∧ k = messageKey site attributes v := by
  cases hmessage : message? attributes with
  | none => simp [wrapperElement_of_message?_eq_none hmessage]
  | some message =>
    obtain ⟨m, span, hmsg, rfl, hne⟩ := message?_eq_some_iff.mp hmessage
    -- taking the message away files nothing
    have hremoval : .file k v ∉ removal site span := by
      intro hmem
      obtain ⟨e, heq⟩ := eq_edit_of_mem_removal hmem
      cases heq
    rw [wrapperElement_of_message hmsg hne, messageKey]
    cases Site.lastAttribute "id" attributes with
    | some id =>
      obtain ⟨id, idSpan⟩ := id
      simp only [List.mem_cons, hremoval, or_false, Action.file.injEq, Option.map_some,
        Option.getD_some, Option.some.injEq]
      constructor
      · rintro ⟨rfl, rfl⟩
        exact ⟨rfl, rfl⟩
      · rintro ⟨rfl, rfl⟩
        exact ⟨rfl, rfl⟩
    | none =>
      simp only [Action.insert, List.cons_append, List.nil_append, List.mem_cons, hremoval,
        or_false, Action.file.injEq, reduceCtorEq, false_or, Option.map_none, Option.getD_none,
        Option.some.injEq]
      constructor
      · rintro ⟨rfl, rfl⟩
        exact ⟨rfl, rfl⟩
      · rintro ⟨rfl, rfl⟩
        exact ⟨rfl, rfl⟩

/-- A constant is written as a literal or as a template without substitutions. -/
theorem constant?_eq_some_iff {t : Tree} {value : String} :
    t.constant? = some value ↔
      (∃ span children, t = .node (.strLit (some value)) span children) ∨
        ∃ c chunks span, t = .node (.template (c :: chunks)) span [] ∧ c.cooked = some value := by
  constructor
  · intro h
    rw [Tree.constant?.eq_def] at h
    split at h
    · exact Or.inl ⟨_, _, by rw [h]⟩
    · exact Or.inr ⟨_, _, _, rfl, h⟩
    · cases h
  · rintro (⟨span, children, rfl⟩ | ⟨c, chunks, span, rfl, hcooked⟩)
    · rfl
    · exact hcooked

/-- What is filed at the constant argument of a lookup. -/
theorem files_of_mem_constantArgument {t : Tree} {span : Span} {count : Nat}
    (hmem : .file k v ∈ site.constantArgument span t.constant? count) :
    Files site (.lookup count) t k v := by
  obtain ⟨value, hconstant, hne, hfiled⟩ := file_mem_constantArgument.mp hmem
  rcases hfiled with ⟨hknown, rfl⟩ | ⟨hknown, haccepts, rfl, rfl⟩
  · exact .known hconstant hne hknown
  · exact .taken (.argument hconstant hknown haccepts)

/-- The constant argument of a lookup is dealt with on entering it. -/
theorem takenAt_of_mem_constantArgument {a : Action} {t : Tree} {count : Nat} {value : String}
    (hconstant : t.constant? = some value)
    (hmem : a ∈ site.constantArgument t.span (some value) count) :
    TakenAt a site (.lookup count) t := by
  rcases constant?_eq_some_iff.mp hconstant with
    ⟨span, children, rfl⟩ | ⟨c, chunks, span, rfl, hcooked⟩
  · left
    show a ∈ site.constantArgument span (some value) count
    exact hmem
  · left
    show a ∈ site.constantArgument span c.cooked count
    rw [hcooked]
    exact hmem

/-- What is filed on entering a node is filed at its place. -/
theorem files_of_mem_enter {role : Role} {kind : Kind} {span : Span} {children : List Tree}
    (hmem : .file k v ∈ enter site role kind span children) :
    Files site role (.node kind span children) k v := by
  have hentered := entered_enter site role kind span children
  -- one case for each thing that is done at a node
  generalize enter site role kind span children = actions at hmem hentered
  cases hentered with
  | lookup => exact files_of_mem_constantArgument hmem
  | dynamic => simp [Site.dynamicArgument] at hmem
  | literal hrole =>
    obtain ⟨x, rfl, htakes, rfl, rfl⟩ := file_mem_literal.mp hmem
    exact .taken (.literal hrole htakes)
  | markup =>
    obtain ⟨x, hx, htakes, rfl, rfl⟩ := file_mem_literal.mp hmem
    cases hx
    exact .taken (.markup htakes)
  | text =>
    obtain ⟨htakes, raw, hraw, hinner, haccepts, rfl, rfl⟩ := file_mem_elementText.mp hmem
    exact .taken (.text htakes hraw hinner haccepts)
  | wrapper =>
    obtain ⟨hmessage, rfl⟩ := file_mem_wrapperElement.mp hmem
    exact .message hmessage
  | nothing => cases hmem

/-- A taken text is filed where it is taken. -/
theorem takenAt_of_takes {role : Role} {t : Tree} {text : String} (h : Takes site role t text) :
    TakenAt (.file (site.harvester.keyFor text) text) site role t := by
  cases h with
  | literal hrole htakes =>
    cases role with
    | lookup count => exact absurd rfl (hrole count)
    | part slot => exact Or.inl (file_mem_literal.mpr ⟨_, rfl, htakes, rfl, rfl⟩)
    | props => exact Or.inl (file_mem_literal.mpr ⟨_, rfl, htakes, rfl, rfl⟩)
    | prop => exact Or.inl (file_mem_literal.mpr ⟨_, rfl, htakes, rfl, rfl⟩)
  | markup htakes => exact Or.inl (file_mem_literal.mpr ⟨_, rfl, htakes, rfl, rfl⟩)
  | argument hconstant hknown haccepts =>
    -- an unknown text that is accepted is filed under its key, at the call that takes it
    refine takenAt_of_mem_constantArgument hconstant ?_
    rw [file_mem_constantArgument]
    exact ⟨_, rfl, ne_empty_of_accepts haccepts, Or.inr ⟨hknown, haccepts, rfl, rfl⟩⟩
  | chunk hrole htakes hmem hholds =>
    have hfile := file_mem_chunks.mpr ⟨htakes, _, hmem, _, hholds, rfl, rfl⟩
    exact Or.inr (mem_leave_iff.mpr (Or.inr ⟨_, rfl, hrole, hfile⟩))
  | text htakes hraw hinner haccepts =>
    exact Or.inl (file_mem_elementText.mpr ⟨htakes, _, hraw, hinner, haccepts, rfl, rfl⟩)

/-- What is filed at one place. -/
theorem takenAt_file_iff {role : Role} {t : Tree} :
    TakenAt (.file k v) site role t ↔ Files site role t k v := by
  constructor
  · cases t with
    | node kind span children =>
      rintro (hmem | hmem)
      · exact files_of_mem_enter hmem
      · rcases mem_leave_iff.mp hmem with ⟨callee, args, -, -, hmem⟩ | ⟨chunks, rfl, hrole, hmem⟩
        · -- marks change the source only
          obtain ⟨e, heq⟩ := eq_edit_of_mem_marks hmem
          cases heq
        · obtain ⟨htakes, c, hc, cooked, hholds, rfl, rfl⟩ := file_mem_chunks.mp hmem
          exact .taken (.chunk hrole htakes hc hholds)
  · intro h
    cases h with
    | taken htakes => exact takenAt_of_takes htakes
    | known hconstant hne hknown =>
      refine takenAt_of_mem_constantArgument hconstant ?_
      rw [file_mem_constantArgument]
      exact ⟨_, rfl, hne, Or.inl ⟨hknown, rfl⟩⟩
    | message hmessage =>
      refine Or.inl ?_
      simp only [enter, beq_self_eq_true, if_true]
      exact file_mem_wrapperElement.mpr ⟨hmessage, rfl⟩

end Single

/-- What a walk files, place by place. -/
theorem file_mem_walk_iff {site : Site} {role : Role} {t : Tree} {k v : String} :
    .file k v ∈ walk site role t ↔ ∃ s r p, Reaches site role t s r p ∧ Files s r p k v := by
  rw [mem_walk_iff]
  simp only [takenAt_file_iff]

/-! ## Places that are changed -/

/-- A call of a node maker with a property whose text is taken. -/
structure NeedsMarks (site : Site) (name : String) (args : List Tree) : Prop where
  not_lookup : site.harvester.exclusion.isLookupCall name = false
  maker : nodeMakers.contains (Exclusion.terminalSegment name) = true
  props : ∃ tag props rest, args = tag :: props :: rest ∧
    dynamicNames (site.within (some name)) props.unspread ≠ []

/-- A place is changed: its text is taken, its message is removed or gets an identifier, or its
properties are marked as dynamic. -/
inductive Changed (site : Site) : Role → Tree → Prop
  | taken {role : Role} {t : Tree} {text : String} (htakes : Takes site role t text) :
      Changed site role t
  | message {role : Role} {place span mspan : Span} {attributes : List Tree} {m : String}
      (hmessage : Site.lastAttribute "msg" attributes = some (m, mspan))
      (hne : Text.trim m ≠ "")
      (hedit : Site.lastAttribute "id" attributes = none ∨ removal site mspan ≠ []) :
      Changed site role (.node (.element (.plain site.options.jsxElement place)) span attributes)
  | marked {role : Role} {kind : Kind} {span : Span} {callee : Tree} {args : List Tree}
      {name : String} (hkind : IsCall kind) (hname : callee.path? = some name)
      (hneeds : NeedsMarks site name args) :
      Changed site role (.node kind span (callee :: args))

section Edits

variable {site : Site}

/-- A literal is changed just when it is filed. -/
theorem exists_edit_mem_literal_iff {span : Span} {value : Option String} {slot : Slot} :
    (∃ e, .edit e ∈ site.literal span value slot) ↔
      ∃ x, value = some x ∧ site.takesLiteral x = true := by
  cases value with
  | none => simp [Site.literal]
  | some x =>
    by_cases htakes : site.takesLiteral x = true
    · simp [Site.literal, htakes, Site.file, Action.replace]
    · simp [Site.literal, htakes]

/-- The argument of a lookup is changed just when it is a text and no known key. -/
theorem exists_edit_mem_constantArgument_iff {span : Span} {value : Option String}
    {count : Nat} :
    (∃ e, .edit e ∈ site.constantArgument span value count) ↔
      ∃ x, value = some x ∧ site.harvester.knownText (Text.trim x) = none ∧
        site.harvester.accepts (Text.trim x) = true := by
  cases value with
  | none => simp [Site.constantArgument]
  | some x =>
    by_cases hempty : Text.trim x = ""
    · simp [Site.constantArgument, hempty, Harvester.accepts]
    · -- only an unknown text that is accepted is replaced
      cases hknown : site.harvester.knownText (Text.trim x) with
      | some known => simp [Site.constantArgument, hempty, hknown]
      | none =>
        by_cases haccepts : site.harvester.accepts (Text.trim x) = true
        · simp [Site.constantArgument, hempty, hknown, haccepts, Site.file, Action.replace]
        · simp [Site.constantArgument, hempty, hknown, haccepts]

/-- A chunk is changed just when it is filed. -/
theorem exists_edit_mem_chunk_iff {c : Chunk} :
    (∃ e, .edit e ∈ site.chunk c) ↔ ∃ k v, .file k v ∈ site.chunk c := by
  rw [Site.chunk]
  split
  · simp
  · dsimp only
    split
    · split
      · simp [Site.file, Action.replace]
      · simp
    · simp

/-- The text of an element is changed just when it is filed. -/
theorem exists_edit_mem_elementText_iff {span : Span} :
    (∃ e, .edit e ∈ site.elementText span) ↔ ∃ k v, .file k v ∈ site.elementText span := by
  rw [Site.elementText]
  split
  · split
    · simp
    · dsimp only
      split
      · split
        · split <;> simp [Site.file, Action.replace]
        · simp
      · simp
  · simp

/-- When a wrapper element is changed. -/
theorem exists_edit_mem_wrapperElement_iff {nameEnd : Nat} {attributes : List Tree} :
    (∃ e, .edit e ∈ site.wrapperElement nameEnd attributes) ↔
      ∃ m span, Site.lastAttribute "msg" attributes = some (m, span) ∧ Text.trim m ≠ "" ∧
        (Site.lastAttribute "id" attributes = none ∨ removal site span ≠ []) := by
  cases hmessage : message? attributes with
  | none =>
    rw [wrapperElement_of_message?_eq_none hmessage]
    constructor
    · rintro ⟨e, hmem⟩
      cases hmem
    · rintro ⟨m, span, hmsg, hne, -⟩
      rw [message?_eq_some_iff.mpr ⟨m, span, hmsg, rfl, hne⟩] at hmessage
      cases hmessage
  | some message =>
    obtain ⟨m, span, hmsg, rfl, hne⟩ := message?_eq_some_iff.mp hmessage
    rw [wrapperElement_of_message hmsg hne]
    -- an element without an identifier gets one, any other can only lose its message
    cases hid : Site.lastAttribute "id" attributes with
    | none =>
      constructor
      · intro _
        exact ⟨m, span, hmsg, hne, Or.inl rfl⟩
      · intro _
        exact ⟨_, List.mem_cons_of_mem _ List.mem_cons_self⟩
    | some id =>
      obtain ⟨id, idSpan⟩ := id
      constructor
      · rintro ⟨e, hmem⟩
        refine ⟨m, span, hmsg, hne, Or.inr ?_⟩
        intro hnil
        simp [hnil] at hmem
      · rintro ⟨m', span', hmsg', -, hedit⟩
        rw [hmsg] at hmsg'
        cases hmsg'
        obtain ⟨a, ha⟩ := List.exists_mem_of_ne_nil _ (hedit.resolve_left (by simp))
        obtain ⟨e, rfl⟩ := eq_edit_of_mem_removal ha
        exact ⟨e, List.mem_cons_of_mem _ ha⟩

/-- A call with dynamic properties is always changed. -/
theorem exists_edit_mem_markDynamic (tag props : Tree) (rest : List Tree) (names : List String)
    (quote : Quote) : ∃ e, .edit e ∈ markDynamic (tag :: props :: rest) names quote := by
  match rest with
  | [] => exact ⟨_, List.mem_cons_self⟩
  | [_] => exact ⟨_, List.mem_cons_self⟩
  | [_, _] => exact ⟨_, List.mem_cons_self⟩
  | _ :: _ :: _ :: _ => exact ⟨_, List.mem_cons_self⟩

/-- A call is marked just when it needs to be. -/
theorem exists_edit_mem_marks_iff {callee : Tree} {args : List Tree} :
    (∃ e, .edit e ∈ marks site callee args) ↔
      ∃ name, callee.path? = some name ∧ NeedsMarks site name args := by
  constructor
  · rintro ⟨e, hmem⟩
    rw [marks] at hmem
    split at hmem
    · rename_i name hname
      split at hmem
      · rename_i hmaker
        rw [Bool.and_eq_true, Bool.not_eq_true'] at hmaker
        split at hmem
        · rename_i tag props rest
          dsimp only at hmem
          split at hmem
          · cases hmem
          · -- a call is marked when it makes a node and has dynamic names to list
            rename_i hnames
            exact ⟨name, hname, hmaker.1, hmaker.2, tag, props, rest, rfl, by simpa using hnames⟩
        · cases hmem
      · cases hmem
    · cases hmem
  · rintro ⟨name, hname, hlookup, hmaker, tag, props, rest, rfl, hnames⟩
    obtain ⟨e, hmem⟩ := exists_edit_mem_markDynamic tag props rest
      (dynamicNames (site.within (some name)) props.unspread) site.quote
    refine ⟨e, ?_⟩
    rw [marks, hname]
    simpa [hlookup, List.contains_iff_mem.mp hmaker, hnames] using hmem

/-- A template is changed just when one of its chunks is filed. -/
theorem exists_edit_mem_chunks_iff {chunks : List Chunk} :
    (∃ e, .edit e ∈ site.chunks chunks) ↔ ∃ k v, .file k v ∈ site.chunks chunks := by
  rw [Site.chunks]
  split
  · simp only [List.mem_flatMap]
    constructor
    · rintro ⟨e, c, hc, hmem⟩
      obtain ⟨k, v, hfile⟩ := exists_edit_mem_chunk_iff.mp ⟨e, hmem⟩
      exact ⟨k, v, c, hc, hfile⟩
    · rintro ⟨k, v, c, hc, hmem⟩
      obtain ⟨e, hedit⟩ := exists_edit_mem_chunk_iff.mpr ⟨k, v, hmem⟩
      exact ⟨e, c, hc, hedit⟩
  · simp

/-- A constant argument that is changed is a changed place. -/
theorem changed_of_mem_constantArgument {t : Tree} {span : Span} {count : Nat} {e : Edit}
    (hmem : .edit e ∈ site.constantArgument span t.constant? count) :
    Changed site (.lookup count) t := by
  obtain ⟨x, hconstant, hknown, haccepts⟩ := exists_edit_mem_constantArgument_iff.mp ⟨e, hmem⟩
  exact .taken (.argument hconstant hknown haccepts)

/-- So is a node that is changed on entering it. -/
theorem changed_of_mem_enter {role : Role} {kind : Kind} {span : Span} {children : List Tree}
    {e : Edit} (hmem : .edit e ∈ enter site role kind span children) :
    Changed site role (.node kind span children) := by
  have hentered := entered_enter site role kind span children
  -- one case for each thing that is done at a node
  generalize enter site role kind span children = actions at hmem hentered
  cases hentered with
  | lookup => exact changed_of_mem_constantArgument hmem
  | dynamic => simp [Site.dynamicArgument] at hmem
  | literal hrole =>
    obtain ⟨x, rfl, htakes⟩ := exists_edit_mem_literal_iff.mp ⟨e, hmem⟩
    exact .taken (.literal hrole htakes)
  | markup =>
    obtain ⟨x, hx, htakes⟩ := exists_edit_mem_literal_iff.mp ⟨e, hmem⟩
    cases hx
    exact .taken (.markup htakes)
  | text =>
    obtain ⟨k, v, hfile⟩ := exists_edit_mem_elementText_iff.mp ⟨e, hmem⟩
    obtain ⟨htakes, raw, hraw, hinner, haccepts, -, -⟩ := file_mem_elementText.mp hfile
    exact .taken (.text htakes hraw hinner haccepts)
  | wrapper =>
    obtain ⟨m, mspan, hmessage, hne, hedit⟩ := exists_edit_mem_wrapperElement_iff.mp ⟨e, hmem⟩
    exact .message hmessage hne hedit
  | nothing => cases hmem

/-- A place is changed where a text is taken. -/
theorem exists_takenAt_edit_of_takes {role : Role} {t : Tree} {text : String}
    (h : Takes site role t text) : ∃ e, TakenAt (.edit e) site role t := by
  cases h with
  | literal hrole htakes =>
    -- a literal is taken in any role but that of a key
    cases role with
    | lookup count => exact absurd rfl (hrole count)
    | part slot => exact (exists_edit_mem_literal_iff.mpr ⟨_, rfl, htakes⟩).imp fun _ => Or.inl
    | props => exact (exists_edit_mem_literal_iff.mpr ⟨_, rfl, htakes⟩).imp fun _ => Or.inl
    | prop => exact (exists_edit_mem_literal_iff.mpr ⟨_, rfl, htakes⟩).imp fun _ => Or.inl
  | markup htakes => exact (exists_edit_mem_literal_iff.mpr ⟨_, rfl, htakes⟩).imp fun _ => Or.inl
  | argument hconstant hknown haccepts =>
    obtain ⟨e, hedit⟩ :=
      exists_edit_mem_constantArgument_iff.mpr ⟨_, rfl, hknown, haccepts⟩
    exact ⟨e, takenAt_of_mem_constantArgument hconstant hedit⟩
  | chunk hrole htakes hmem hholds =>
    have hfile := file_mem_chunks.mpr ⟨htakes, _, hmem, _, hholds, rfl, rfl⟩
    obtain ⟨e, hedit⟩ := exists_edit_mem_chunks_iff.mpr ⟨_, _, hfile⟩
    exact ⟨e, Or.inr (mem_leave_iff.mpr (Or.inr ⟨_, rfl, hrole, hedit⟩))⟩
  | text htakes hraw hinner haccepts =>
    obtain ⟨e, hedit⟩ := exists_edit_mem_elementText_iff.mpr
      ⟨_, _, file_mem_elementText.mpr ⟨htakes, _, hraw, hinner, haccepts, rfl, rfl⟩⟩
    exact ⟨e, Or.inl hedit⟩

/-- When one place is changed. -/
theorem exists_takenAt_edit_iff {role : Role} {t : Tree} :
    (∃ e, TakenAt (.edit e) site role t) ↔ Changed site role t := by
  constructor
  · cases t with
    | node kind span children =>
      rintro ⟨e, hmem | hmem⟩
      · exact changed_of_mem_enter hmem
      · -- behind the children a call is marked or the chunks are taken
        rcases mem_leave_iff.mp hmem with
          ⟨callee, args, hkind, rfl, hmarks⟩ | ⟨chunks, rfl, hrole, hchunks⟩
        · obtain ⟨name, hname, hneeds⟩ := exists_edit_mem_marks_iff.mp ⟨e, hmarks⟩
          exact .marked hkind hname hneeds
        · obtain ⟨k, v, hfile⟩ := exists_edit_mem_chunks_iff.mp ⟨e, hchunks⟩
          obtain ⟨htakes, c, hc, cooked, hholds, -, -⟩ := file_mem_chunks.mp hfile
          exact .taken (.chunk hrole htakes hc hholds)
  · intro h
    cases h with
    | taken htakes => exact exists_takenAt_edit_of_takes htakes
    | message hmessage hne hedit =>
      obtain ⟨e, hmem⟩ :=
        exists_edit_mem_wrapperElement_iff.mpr ⟨_, _, hmessage, hne, hedit⟩
      refine ⟨e, Or.inl ?_⟩
      simp only [enter, beq_self_eq_true, if_true]
      exact hmem
    | marked hkind hname hneeds =>
      obtain ⟨e, hmem⟩ := exists_edit_mem_marks_iff.mpr ⟨_, hname, hneeds⟩
      exact ⟨e, Or.inr (mem_leave_iff.mpr (Or.inl ⟨_, _, hkind, rfl, hmem⟩))⟩

end Edits

/-- The edits of actions. -/
theorem mem_edits {actions : List Action} {e : Edit} : e ∈ edits actions ↔ .edit e ∈ actions := by
  rw [edits, List.mem_filterMap]
  constructor
  · rintro ⟨action, hmem, heq⟩
    split at heq <;> cases heq
    exact hmem
  · intro hmem
    exact ⟨_, hmem, rfl⟩

/-- A walk leaves a source alone just when it reaches no place that is changed. -/
theorem edits_walk_eq_nil_iff {site : Site} {role : Role} {t : Tree} :
    edits (walk site role t) = [] ↔ ∀ s r p, Reaches site role t s r p → ¬Changed s r p := by
  rw [List.eq_nil_iff_forall_not_mem]
  simp only [mem_edits, mem_walk_iff]
  constructor
  · intro h s r p hreach hchanged
    obtain ⟨e, htaken⟩ := exists_takenAt_edit_iff.mpr hchanged
    exact h e ⟨s, r, p, hreach, htaken⟩
  · rintro h e ⟨s, r, p, hreach, htaken⟩
    exact h s r p hreach (exists_takenAt_edit_iff.mp ⟨e, htaken⟩)

end TextHarvest.Harvest
