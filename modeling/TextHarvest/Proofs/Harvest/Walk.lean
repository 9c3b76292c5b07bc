import TextHarvest.Harvest.Walk

/-!
# What holds of every walk

A walk never changes the harvester, the source or the quote of a site, only the call around it. So
what holds of the actions on entering and on leaving one node, and of two lists of actions together
when it holds of each, holds of the walk over a whole tree.

Main results:

* `walk_induction` — from single nodes to a walk.
* `entered_enter` and `mem_leave_iff` — what can be done on entering and on leaving a node.
* `accounted_walk` — a walk files every text that it records as taken.
-/

namespace TextHarvest.Harvest

open Script

@[simp] theorem walkAll_nil_left (ts : List Tree) : walkAll [] ts = [] := by
  simp [walkAll]

@[simp] theorem walkAll_nil_right (vs : List Visit) : walkAll vs [] = [] := by
  simp [walkAll]

/-! ## Sites of one walk -/

/-- The call around a place is all that sets two sites of one walk apart. -/
structure Site.SameGround (a b : Site) : Prop where
  harvester : a.harvester = b.harvester
  source : a.source = b.source
  quote : a.quote = b.quote

/-- A site has its own ground. -/
theorem Site.SameGround.refl (a : Site) : a.SameGround a :=
  ⟨rfl, rfl, rfl⟩

/-- Sites of one ground have it pairwise. -/
theorem Site.SameGround.trans {a b c : Site} (hab : a.SameGround b) (hbc : b.SameGround c) :
    a.SameGround c :=
  ⟨hab.harvester.trans hbc.harvester, hab.source.trans hbc.source, hab.quote.trans hbc.quote⟩

@[simp] theorem Site.sameGround_within (site : Site) (call : Option String) :
    (site.within call).SameGround site :=
  ⟨rfl, rfl, rfl⟩

/-- A list of visits stays on the ground of a site. -/
def OnGround (site : Site) (vs : List Visit) : Prop :=
  ∀ s role, some (s, role) ∈ vs → s.SameGround site

section

variable {site : Site}

@[simp] theorem onGround_nil : OnGround site [] := by
  intro s role hmem
  cases hmem

@[simp] theorem onGround_cons_none {vs : List Visit} :
    OnGround site (none :: vs) ↔ OnGround site vs := by
  simp [OnGround]

@[simp] theorem onGround_cons_some {s : Site} {role : Role} {vs : List Visit} :
    OnGround site (some (s, role) :: vs) ↔ s.SameGround site ∧ OnGround site vs := by
  constructor
  · intro h
    exact ⟨h s role List.mem_cons_self, fun s' r hmem => h s' r (List.mem_cons_of_mem _ hmem)⟩
  · rintro ⟨hs, hvs⟩ s' r hmem
    rcases List.mem_cons.mp hmem with heq | hmem
    · cases heq
      exact hs
    · exact hvs s' r hmem

@[simp] theorem onGround_append {vs ws : List Visit} :
    OnGround site (vs ++ ws) ↔ OnGround site vs ∧ OnGround site ws := by
  constructor
  · intro h
    exact ⟨fun s r hmem => h s r (List.mem_append_left _ hmem),
      fun s r hmem => h s r (List.mem_append_right _ hmem)⟩
  · rintro ⟨hvs, hws⟩ s r hmem
    rcases List.mem_append.mp hmem with hmem | hmem
    · exact hvs s r hmem
    · exact hws s r hmem

/-- Fewer visits stay on the ground. -/
theorem OnGround.of_subset {vs ws : List Visit} (h : OnGround site ws) (hsub : vs ⊆ ws) :
    OnGround site vs :=
  fun s r hmem => h s r (hsub hmem)

/-- Children that are each visited on the ground. -/
theorem onGround_map {f : Tree → Visit} {ts : List Tree}
    (h : ∀ t s role, f t = some (s, role) → s.SameGround site) : OnGround site (ts.map f) := by
  intro s role hmem
  obtain ⟨t, -, heq⟩ := List.mem_map.mp hmem
  exact h t s role heq

@[simp] theorem onGround_map_const {s : Site} {role : Role} (ts : List Tree)
    (h : s.SameGround site) : OnGround site (ts.map fun _ => some (s, role)) := by
  refine onGround_map ?_
  intro _ s' r heq
  cases heq
  exact h

/-- The arguments of a call are visited on its ground. -/
@[simp] theorem onGround_visitArguments (name : Option String) (args : List Tree) :
    OnGround site (visitArguments site name args) := by
  have hplain : OnGround site (args.map fun _ => (site.within name).visit) :=
    onGround_map_const args (site.sameGround_within name)
  have hdrop (n : Nat) := hplain.of_subset (List.drop_subset n _)
  have htake (n : Nat) := hplain.of_subset (List.take_subset n _)
  rw [visitArguments.eq_def]
  dsimp only
  split
  · exact hplain
  · rename_i n
    have hinner := site.sameGround_within (some n)
    split
    · -- the first argument of a lookup has a role of its own
      exact onGround_cons_some.mpr ⟨hinner, hdrop 1⟩
    · split
      · -- the second argument of a node maker has one
        exact onGround_append.mpr ⟨htake 1, onGround_cons_some.mpr ⟨hinner, hdrop 2⟩⟩
      · split
        · -- and so has the first one of a text maker
          exact onGround_cons_some.mpr ⟨hinner, hdrop 1⟩
        · exact hplain

/-- The children of a node are visited on its ground. -/
theorem onGround_visits (role : Role) (kind : Kind) (children : List Tree) :
    OnGround site (visits site role kind children) := by
  have hground := Site.SameGround.refl site
  rw [visits.eq_def]
  dsimp only
  split <;> (try split) <;> (try split) <;>
    simp only [Site.visit, hground, Site.sameGround_within, onGround_nil, onGround_cons_none,
      onGround_cons_some, onGround_map_const, onGround_visitArguments, and_self]
  -- what is left are two maps that skip some of the children
  · -- computed keys
    refine onGround_map ?_
    intro t s r heq
    split at heq <;> cases heq
    exact hground
  · -- attributes of a wrapper element
    refine onGround_map ?_
    intro t s r heq
    split at heq
    · split at heq <;> cases heq
      exact hground
    · cases heq
      exact hground

end

/-! ## From nodes to walks -/

section

variable {P : List Action → Prop} {base : Site}

mutual

/-- What holds of the actions at every node, and of two lists of actions together when it holds of
each, holds of a walk. -/
theorem walk_induction (nil : P []) (append : ∀ as bs, P as → P bs → P (as ++ bs))
    (enters : ∀ site role kind span children, Site.SameGround site base →
      P (enter site role kind span children))
    (leaves : ∀ site role kind children, Site.SameGround site base →
      P (leave site role kind children)) :
    ∀ (site : Site) (role : Role) (t : Tree), site.SameGround base → P (walk site role t)
  | site, role, .node kind span children, hground => by
    rw [walk]
    have hchildren : OnGround base (visits site role kind children) :=
      fun s r hmem => (onGround_visits role kind children s r hmem).trans hground
    exact append _ _ (append _ _ (enters site role kind span children hground)
      (walkAll_induction nil append enters leaves _ children hchildren))
      (leaves site role kind children hground)

/-- What holds of the actions at each node holds of those of a walk over some trees. -/
theorem walkAll_induction (nil : P []) (append : ∀ as bs, P as → P bs → P (as ++ bs))
    (enters : ∀ site role kind span children, Site.SameGround site base →
      P (enter site role kind span children))
    (leaves : ∀ site role kind children, Site.SameGround site base →
      P (leave site role kind children)) :
    ∀ (vs : List Visit) (ts : List Tree), OnGround base vs → P (walkAll vs ts)
  | [], ts, _ => by
    rw [walkAll]
    · exact nil
    · simp
  | _ :: _, [], _ => by
    rw [walkAll]
    · exact nil
    · simp
  | none :: vs, t :: ts, hvs => by
    rw [walkAll]
    exact append _ _ nil
      (walkAll_induction nil append enters leaves vs ts (onGround_cons_none.mp hvs))
  | some (site, role) :: vs, t :: ts, hvs => by
    obtain ⟨hsite, hvs⟩ := onGround_cons_some.mp hvs
    rw [walkAll]
    exact append _ _ (walk_induction nil append enters leaves site role t hsite)
      (walkAll_induction nil append enters leaves vs ts hvs)

end

end

/-! ## Filed findings -/

/-- Every text that is recorded as taken is a text, and is filed under its key. -/
def Accounted (h : Harvester) (actions : List Action) : Prop :=
  ∀ f : Finding, .record f ∈ actions → f.dynamic = false →
    f.text ≠ "" ∧ .file (h.keyFor f.text) f.text ∈ actions

/-- Where nothing is done nothing is to be accounted for. -/
theorem accounted_nil (h : Harvester) : Accounted h [] := by
  intro f hmem
  cases hmem

/-- What is accounted for may be joined. -/
theorem accounted_append {h : Harvester} {as bs : List Action} (has : Accounted h as)
    (hbs : Accounted h bs) : Accounted h (as ++ bs) := by
  intro f hmem hstatic
  rcases List.mem_append.mp hmem with hmem | hmem
  · obtain ⟨htext, hfile⟩ := has f hmem hstatic
    exact ⟨htext, List.mem_append_left _ hfile⟩
  · obtain ⟨htext, hfile⟩ := hbs f hmem hstatic
    exact ⟨htext, List.mem_append_right _ hfile⟩

/-- Actions that record nothing are accounted for. -/
theorem accounted_of_records_eq_nil {h : Harvester} {as : List Action}
    (hnone : ∀ f : Finding, .record f ∉ as) : Accounted h as := by
  intro f hmem
  exact absurd hmem (hnone f)

/-- The empty text is never taken. -/
theorem ne_empty_of_accepts {h : Harvester} {text : String} (haccepts : h.accepts text = true) :
    text ≠ "" := by
  rw [Harvester.accepts, Bool.and_eq_true] at haccepts
  simpa using haccepts.1

/-- A text that is taken is filed and recorded. -/
theorem accounted_file (site : Site) {text : String} (surface : Surface)
    (haccepts : site.harvester.accepts text = true) :
    Accounted site.harvester (site.file text surface) := by
  intro f hmem _
  simp only [Site.file, List.mem_cons, List.not_mem_nil, or_false, reduceCtorEq, false_or,
    Action.record.injEq] at hmem
  subst hmem
  exact ⟨ne_empty_of_accepts haccepts, List.mem_cons_self⟩

/-- Filing a text and then changing the source is accounted for. -/
theorem accounted_file_append (site : Site) {text : String} (surface : Surface)
    {as : List Action} (haccepts : site.harvester.accepts text = true)
    (hnone : ∀ f : Finding, .record f ∉ as) :
    Accounted site.harvester (site.file text surface ++ as) :=
  accounted_append (accounted_file site surface haccepts) (accounted_of_records_eq_nil hnone)

/-- The finding of a literal is filed. -/
theorem accounted_literal (site : Site) (span : Span) (value : Option String) (slot : Slot) :
    Accounted site.harvester (site.literal span value slot) := by
  rw [Site.literal.eq_def]
  split
  · split
    · rename_i htakes
      rw [Site.takesLiteral, Bool.and_eq_true] at htakes
      exact accounted_file_append _ _ htakes.2 (by simp [Action.replace])
    · exact accounted_nil _
  · exact accounted_nil _

/-- The finding of a constant argument is filed, and a known key needs no finding. -/
theorem accounted_constantArgument (site : Site) (span : Span) (value : Option String)
    (count : Nat) : Accounted site.harvester (site.constantArgument span value count) := by
  rw [Site.constantArgument]
  split
  · exact accounted_nil _
  · split
    · exact accounted_nil _
    · split
      · -- a known key is filed again and not recorded
        exact accounted_of_records_eq_nil (by simp)
      · split
        · rename_i haccepts
          exact accounted_file_append _ _ haccepts (by simp [Action.replace])
        · exact accounted_nil _

/-- A dynamic finding is not filed. -/
theorem accounted_dynamicArgument (site : Site) (span : Span) :
    Accounted site.harvester (site.dynamicArgument span) := by
  intro f hmem hstatic
  simp only [Site.dynamicArgument, List.mem_singleton, Action.record.injEq] at hmem
  subst hmem
  cases hstatic

/-- The finding of a chunk is filed. -/
theorem accounted_chunk (site : Site) (c : Chunk) :
    Accounted site.harvester (site.chunk c) := by
  rw [Site.chunk]
  split
  · exact accounted_nil _
  · dsimp only
    split
    · rename_i hboth
      rw [Bool.and_eq_true] at hboth
      split
      · exact accounted_file_append _ _ hboth.1 (by simp [Action.replace])
      · exact accounted_nil _
    · exact accounted_nil _

/-- Actions that are accounted for one by one are so together. -/
theorem accounted_flatMap {α : Type} {h : Harvester} {f : α → List Action}
    (hf : ∀ a, Accounted h (f a)) (l : List α) : Accounted h (l.flatMap f) := by
  induction l with
  | nil => exact accounted_nil h
  | cons a l ih =>
    rw [List.flatMap_cons]
    exact accounted_append (hf a) ih

/-- The findings of a template are filed. -/
theorem accounted_chunks (site : Site) (cs : List Chunk) :
    Accounted site.harvester (site.chunks cs) := by
  rw [Site.chunks]
  split
  · exact accounted_flatMap (accounted_chunk site) cs
  · exact accounted_nil _

/-- The finding of the text of an element is filed. -/
theorem accounted_elementText (site : Site) (span : Span) :
    Accounted site.harvester (site.elementText span) := by
  rw [Site.elementText]
  split
  · split
    · exact accounted_nil _
    · dsimp only
      split
      · split
        · rename_i haccepts
          refine accounted_file_append _ _ haccepts ?_
          split <;> simp [Action.replace]
        · exact accounted_nil _
      · exact accounted_nil _
  · exact accounted_nil _

/-- What removes the message of a wrapper element. -/
def removal (site : Site) (span : Span) : List Action :=
  (site.removal? span).getD []

/-- The message goes with the blanks before it; nothing goes where the source cannot be cut. -/
theorem removal_eq (site : Site) (span : Span) : removal site span =
    if site.options.keepDefaultMsg then []
    else
      match Chars.splitAt? site.source span.start with
      | some (before, _) => [.replace ⟨Chars.size (Chars.trimEnd before), span.stop⟩ ""]
      | none => [] := by
  rw [removal, Site.removal?]
  split
  · rfl
  · cases Chars.splitAt? site.source span.start with
    | none => rfl
    | some parts => rfl

/-- A removal is nothing but an edit. -/
theorem eq_edit_of_mem_removal {site : Site} {span : Span} {a : Action}
    (hmem : a ∈ removal site span) : ∃ e, a = .edit e := by
  rw [removal_eq] at hmem
  split at hmem
  · cases hmem
  · split at hmem
    · exact ⟨_, List.mem_singleton.mp hmem⟩
    · cases hmem

/-- A wrapper element with a message loses it, and gets an identifier if it has none. -/
theorem wrapperElement_of_message {site : Site} {nameEnd : Nat} {attributes : List Tree}
    {message : String} {span : Span}
    (hmessage : Site.lastAttribute "msg" attributes = some (message, span))
    (hne : Text.trim message ≠ "") :
    site.wrapperElement nameEnd attributes =
      match Site.lastAttribute "id" attributes with
      | some (id, _) => .file id (Text.trim message) :: removal site span
      | none =>
        [.record ⟨Text.trim message, .wrapperElement, false⟩,
          .insert nameEnd
            (" id=" ++ Text.quoted (site.harvester.keyFor (Text.trim message)) .double),
          .file (site.harvester.keyFor (Text.trim message)) (Text.trim message)] ++
          removal site span := by
  rw [Site.wrapperElement.eq_def, hmessage]
  dsimp only
  rw [if_neg (by simpa using hne)]
  cases Site.lastAttribute "id" attributes with
  | none => rfl
  | some id => rfl

/-- Nothing is done at a wrapper element without a message. -/
theorem wrapperElement_of_no_message {site : Site} {nameEnd : Nat} {attributes : List Tree}
    (hnone : ∀ message span, Site.lastAttribute "msg" attributes = some (message, span) →
      Text.trim message = "") : site.wrapperElement nameEnd attributes = [] := by
  rw [Site.wrapperElement]
  split
  · rfl
  · rename_i message span hmessage
    simp [hnone message span hmessage]

/-- The finding of a message is filed, under the identifier of the element or a key of its own. -/
theorem accounted_wrapperElement (site : Site) (nameEnd : Nat) (attributes : List Tree) :
    Accounted site.harvester (site.wrapperElement nameEnd attributes) := by
  -- an authored identifier is not recorded, a made one is
  by_cases hsome : ∃ message span,
      Site.lastAttribute "msg" attributes = some (message, span) ∧ Text.trim message ≠ ""
  · obtain ⟨message, span, hmessage, hne⟩ := hsome
    have hnone : ∀ f : Finding, .record f ∉ removal site span := by
      intro f hmem
      obtain ⟨e, heq⟩ := eq_edit_of_mem_removal hmem
      cases heq
    rw [wrapperElement_of_message hmessage hne]
    split
    · -- with an identifier nothing is recorded
      refine accounted_of_records_eq_nil ?_
      intro f
      simp [hnone f]
    · -- without one the message is recorded and filed
      refine accounted_append ?_ (accounted_of_records_eq_nil hnone)
      intro f hmem _
      simp only [Action.insert, List.mem_cons, List.not_mem_nil, or_false, reduceCtorEq,
        Action.record.injEq] at hmem
      subst hmem
      exact ⟨hne, by simp⟩
  · rw [wrapperElement_of_no_message]
    · exact accounted_nil _
    · intro message span hmessage
      exact Classical.byContradiction fun hne => hsome ⟨message, span, hmessage, hne⟩

/-- The marks of dynamic properties are edits. -/
theorem eq_edit_of_mem_markDynamic {args : List Tree} {names : List String} {quote : Quote}
    {a : Action} (hmem : a ∈ markDynamic args names quote) : ∃ e, a = .edit e := by
  have hextend (t : Tree) (hmem : a ∈ extendNames t names quote) : ∃ e, a = .edit e := by
    rw [extendNames.eq_def] at hmem
    split at hmem
    · dsimp only at hmem
      split at hmem
      · cases hmem
      · split at hmem
        · exact ⟨_, List.mem_singleton.mp hmem⟩
        · exact ⟨_, List.mem_singleton.mp hmem⟩
    · exact ⟨_, List.mem_singleton.mp hmem⟩
  rw [markDynamic.eq_def] at hmem
  split at hmem
  · exact ⟨_, List.mem_singleton.mp hmem⟩
  · exact ⟨_, List.mem_singleton.mp hmem⟩
  · -- there is a flag: it is replaced, and the names are put behind it or into their list
    dsimp only at hmem
    split at hmem
    · rcases List.mem_cons.mp hmem with rfl | hmem
      · exact ⟨_, rfl⟩
      · exact ⟨_, List.mem_singleton.mp hmem⟩
    · rcases List.mem_cons.mp hmem with rfl | hmem
      · exact ⟨_, rfl⟩
      · exact hextend _ hmem
  · cases hmem

/-- A template without substitutions is the constant that it spells. -/
theorem constant?_template (chunks : List Chunk) (span : Span) :
    (Script.Tree.node (.template chunks) span []).constant? = chunks.head?.bind Chunk.cooked := by
  cases chunks <;> rfl

/-- All that can be done on entering a node. -/
inductive Entered (site : Site) : Role → Kind → Span → List Tree → List Action → Prop
  | lookup {count : Nat} {kind : Kind} {span : Span} {children : List Tree} :
      Entered site (.lookup count) kind span children
        (site.constantArgument span (Script.Tree.node kind span children).constant? count)
  | dynamic {role : Role} {kind : Kind} {span : Span} {children : List Tree} :
      Entered site role kind span children (site.dynamicArgument span)
  | literal {role : Role} {value : Option String} {span : Span} {children : List Tree} {slot : Slot}
      (hrole : ∀ count, role ≠ .lookup count) :
      Entered site role (.strLit value) span children (site.literal span value slot)
  | markup {role : Role} {value : String} {span : Span} {children : List Tree} :
      Entered site role (.markupString value) span children
        (site.literal span (some value) .attribute)
  | text {role : Role} {span : Span} {children : List Tree} :
      Entered site role .markupText span children (site.elementText span)
  | wrapper {role : Role} {place span : Span} {children : List Tree} :
      Entered site role (.element (.plain site.options.jsxElement place)) span children
        (site.wrapperElement place.stop children)
  | nothing {role : Role} {kind : Kind} {span : Span} {children : List Tree} :
      Entered site role kind span children []

/-- What is done on entering a node is what its kind and its role ask for. -/
theorem entered_enter (site : Site) (role : Role) (kind : Kind) (span : Span)
    (children : List Tree) :
    Entered site role kind span children (enter site role kind span children) := by
  rw [enter.eq_def]
  split
  · -- a string literal
    split
    · exact .lookup
    · exact .literal (by simp)
    · rename_i hlookup _
      exact .literal hlookup
  · -- a template, which is a constant when nothing is substituted
    rename_i chunks
    split
    · split
      · rename_i hempty
        obtain rfl := List.isEmpty_iff.mp hempty
        rw [← constant?_template chunks span]
        exact .lookup
      · exact .dynamic
    · exact .nothing
  · exact .markup
  · exact .text
  · -- an element, which is the wrapper or not
    split
    · rename_i hname
      rw [beq_iff_eq] at hname
      rw [hname]
      exact .wrapper
    · exact .nothing
  · exact .nothing

/-- The findings on entering a node are filed. -/
theorem accounted_enter (site : Site) (role : Role) (kind : Kind) (span : Span)
    (children : List Tree) : Accounted site.harvester (enter site role kind span children) := by
  have hentered := entered_enter site role kind span children
  generalize enter site role kind span children = actions at hentered ⊢
  cases hentered with
  | lookup => exact accounted_constantArgument _ _ _ _
  | dynamic => exact accounted_dynamicArgument _ _
  | literal _ => exact accounted_literal _ _ _ _
  | markup => exact accounted_literal _ _ _ _
  | text => exact accounted_elementText _ _
  | wrapper => exact accounted_wrapperElement _ _ _
  | nothing => exact accounted_nil _

/-- The marks that a call of a node maker gets. -/
def marks (site : Site) (callee : Tree) (args : List Tree) : List Action :=
  match callee.path? with
  | some n =>
    if !site.harvester.exclusion.isLookupCall n &&
        nodeMakers.contains (Exclusion.terminalSegment n) then
      match args with
      | _ :: props :: _ =>
        let names := dynamicNames (site.within (some n)) props.unspread
        if names.isEmpty then [] else markDynamic args names site.quote
      | _ => []
    else []
  | none => []

/-- Marking a call is nothing but edits. -/
theorem eq_edit_of_mem_marks {site : Site} {callee : Tree} {args : List Tree} {a : Action}
    (hmem : a ∈ marks site callee args) : ∃ e, a = .edit e := by
  rw [marks] at hmem
  split at hmem
  · split at hmem
    · split at hmem
      · dsimp only at hmem
        split at hmem
        · cases hmem
        · exact eq_edit_of_mem_markDynamic hmem
      · cases hmem
    · cases hmem
  · cases hmem

/-- The calls, of a function or of a constructor. -/
def IsCall : Kind → Prop
  | .call _ => True
  | .construct _ => True
  | _ => False

/-- On leaving a node a call is marked and the chunks of a template are read, unless the template is
the constant argument of a lookup. -/
theorem mem_leave_iff {site : Site} {role : Role} {kind : Kind} {children : List Tree}
    {a : Action} : a ∈ leave site role kind children ↔
      (∃ callee args, IsCall kind ∧ children = callee :: args ∧ a ∈ marks site callee args) ∨
        ∃ chunks, kind = .template chunks ∧ (∀ count, role = .lookup count → children ≠ []) ∧
          a ∈ site.chunks chunks := by
  rw [leave.eq_def]
  dsimp only
  split
  · -- calls of functions
    constructor
    · intro hmem
      exact Or.inl ⟨_, _, trivial, rfl, hmem⟩
    · rintro (⟨callee, args, -, heq, hmem⟩ | ⟨chunks, heq, -⟩)
      · cases heq
        exact hmem
      · cases heq
  · -- calls of constructors
    constructor
    · intro hmem
      exact Or.inl ⟨_, _, trivial, rfl, hmem⟩
    · rintro (⟨callee, args, -, heq, hmem⟩ | ⟨chunks, heq, -⟩)
      · cases heq
        exact hmem
      · cases heq
  · -- templates
    constructor
    · intro hmem
      refine Or.inr ⟨_, rfl, ?_, ?_⟩
      · rintro count rfl rfl
        cases hmem
      · split at hmem
        · split at hmem
          · cases hmem
          · exact hmem
        · exact hmem
    · rintro (⟨callee, args, hcall, -⟩ | ⟨chunks, heq, hrole, hmem⟩)
      · exact hcall.elim
      · cases heq
        split
        · rename_i count
          rw [if_neg (by simpa using hrole count rfl)]
          exact hmem
        · exact hmem
  · -- nothing is done on leaving any other node
    rename_i htemplate hcall hconstruct
    constructor
    · intro hmem
      cases hmem
    · rintro (⟨callee, args, hkind, rfl, -⟩ | ⟨chunks, rfl, -⟩)
      · match kind, hkind with
        | .call _, _ => exact (hcall _ _ _ rfl rfl).elim
        | .construct _, _ => exact (hconstruct _ _ _ rfl rfl).elim
      · exact (htemplate _ rfl).elim

/-- The findings on leaving a node are filed. -/
theorem accounted_leave (site : Site) (role : Role) (kind : Kind) (children : List Tree) :
    Accounted site.harvester (leave site role kind children) := by
  intro f hmem hstatic
  rcases mem_leave_iff.mp hmem with ⟨callee, args, -, -, hmem⟩ | ⟨chunks, hkind, hrole, hmem⟩
  · obtain ⟨e, heq⟩ := eq_edit_of_mem_marks hmem
    cases heq
  · obtain ⟨htext, hfile⟩ := accounted_chunks site chunks f hmem hstatic
    exact ⟨htext, mem_leave_iff.mpr (Or.inr ⟨chunks, hkind, hrole, hfile⟩)⟩

/-- A walk files every text that it records as taken. -/
theorem accounted_walk (site : Site) (role : Role) (t : Tree) :
    Accounted site.harvester (walk site role t) := by
  refine walk_induction (accounted_nil _) (fun _ _ => accounted_append) ?_ ?_ site role t
    (Site.SameGround.refl site)
  · intro s r kind span children hground
    rw [← hground.harvester]
    exact accounted_enter s r kind span children
  · intro s r kind children hground
    rw [← hground.harvester]
    exact accounted_leave s r kind children

end TextHarvest.Harvest
