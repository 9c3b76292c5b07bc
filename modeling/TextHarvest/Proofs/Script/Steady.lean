import TextHarvest.Proofs.Script.Operand
import TextHarvest.Proofs.Script.Place

/-!
# Steps that keep to the source

The grammar reads a source from one place to a later one. A state stands in the source when its
characters are those behind its offsets, and a step is steady when it leads from such states to such
states, never back, and whatever it answers or reports points between characters: offsets do, and
the ranges of all nodes of a tree do.

The steps of which the grammar is made are steady, and so is what is put together from steady steps.

Main results:

* `standsIn_startState` — reading on at a place of the source.
* `steady_bind`, `steady_iterate` — steps one after the other, and rounds of a loop.
-/

namespace TextHarvest.Script

open Chars

/-! ## States in a source -/

/-- A state stands in a source. The characters of a token are unknown only for a comment that is not
closed. -/
structure State.StandsIn (s : State) (source : List Char) : Prop where
  prev : From source s.prevStop s.prevRest
  text : (∃ offset, s.cur.token = .error offset) ∧ s.text = [] ∨
    From source s.cur.span.start s.text
  start : Between source s.cur.span.start
  rest : From source s.cur.span.stop s.rest
  behind : s.prevStop ≤ s.cur.span.start
  order : s.cur.span.start ≤ s.cur.span.stop
  error : ∀ offset, s.cur.token = .error offset → Between source offset

/-- Reading on at a place of the source. -/
theorem standsIn_startState {source cs : List Char} {pos : Nat} (h : From source pos cs) :
    (startState cs pos).StandsIn source := by
  have hscan := scanned_scan cs pos
  rw [startState]
  generalize scan cs pos = r at hscan ⊢
  obtain ⟨lexeme, text, rest⟩ := r
  have herror (offset : Nat) (he : lexeme.token = .error offset) : Between source offset := by
    obtain ⟨x, hx⟩ := hscan.error offset he
    exact (h.reads hx).between
  rcases hscan.text with ⟨hopen, hempty, x, hx⟩ | htext
  · exact ⟨h, .inl ⟨hopen, hempty⟩, (h.reads hx).between, h.reads hscan.rest, hx.le, hscan.order,
      herror⟩
  · exact ⟨h, .inr (h.reads htext), (h.reads htext).between, h.reads hscan.rest, htext.le,
      hscan.order, herror⟩

/-- The characters of a token that has some are those at its place. -/
theorem State.StandsIn.from_text {s : State} {source : List Char} (h : s.StandsIn source) {c : Char}
    {cs : List Char} (htext : s.text = c :: cs) : From source s.cur.span.start (c :: cs) := by
  rcases h.text with ⟨-, hempty⟩ | hfrom
  · rw [htext] at hempty
    cases hempty
  · exact htext ▸ hfrom

/-- So are those of a word. -/
theorem State.StandsIn.from_word {s : State} {source : List Char} (h : s.StandsIn source)
    {w : String} (hword : s.cur.token = .word w) : From source s.cur.span.start s.text := by
  refine h.text.resolve_left ?_
  rintro ⟨⟨offset, herror⟩, -⟩
  rw [hword] at herror
  cases herror

/-- A state further on in the same source. -/
structure State.MovesTo (s : State) (source : List Char) (s' : State) : Prop where
  standsIn : s'.StandsIn source
  onward : s.prevStop ≤ s'.prevStop

theorem State.StandsIn.stays {s : State} {source : List Char} (h : s.StandsIn source) :
    s.MovesTo source s :=
  ⟨h, Nat.le_refl _⟩

theorem State.MovesTo.trans {source : List Char} {s s' s'' : State} (h : s.MovesTo source s')
    (h' : s'.MovesTo source s'') : s.MovesTo source s'' :=
  ⟨h'.standsIn, Nat.le_trans h.onward h'.onward⟩

/-- Reading on at a place further on. -/
theorem State.movesTo_startState {source cs : List Char} {s : State} {pos : Nat}
    (hfrom : From source pos cs) (hle : s.prevStop ≤ pos) : s.MovesTo source (startState cs pos) :=
  ⟨standsIn_startState hfrom, hle⟩

/-! ## Answers that point into a source -/

/-- All nodes of a tree start and stop between characters. -/
inductive Tree.StandsIn (source : List Char) : Tree → Prop
  | node {kind : Kind} {span : Span} {children : List Tree} (hstart : Between source span.start)
      (hstop : Between source span.stop) (hchildren : ∀ t ∈ children, t.StandsIn source) :
      Tree.StandsIn source (.node kind span children)

/-- What the answers of a kind say of the source. -/
class Pointing (α : Type) where
  fits : List Char → α → Prop

export Pointing (fits)

/-- Answers that say nothing of the source. -/
abbrev Pointing.silent (α : Type) : Pointing α :=
  ⟨fun _ _ => True⟩

instance : Pointing Nat := ⟨Between⟩
instance : Pointing Tree := ⟨Tree.StandsIn⟩
instance : Pointing State := ⟨fun source s => s.StandsIn source⟩
instance : Pointing Span := ⟨fun source span => Between source span.start ∧ Between source span.stop⟩
instance : Pointing Lexeme :=
  ⟨fun source l => Between source l.span.start ∧ Between source l.span.stop⟩
instance : Pointing Unit := .silent _
instance : Pointing Bool := .silent _
instance : Pointing String := .silent _
instance : Pointing Token := .silent _
instance : Pointing Chunk := .silent _
instance : Pointing Dialect := .silent _
instance : Pointing Context := .silent _

section Instances

variable {α β : Type} [Pointing α] [Pointing β]

instance : Pointing (Option α) := ⟨fun source a => ∀ x, a = some x → fits source x⟩
instance : Pointing (List α) := ⟨fun source as => ∀ x ∈ as, fits source x⟩
instance : Pointing (α × β) := ⟨fun source a => fits source a.1 ∧ fits source a.2⟩
instance : Pointing (α ⊕ β) := ⟨fun source a => a.elim (fits source) (fits source)⟩
instance : Pointing (ForInStep α) := ⟨fun source a => fits source a.value⟩
instance : Pointing (Except Nat α) where
  fits source
    | .ok a => fits source a
    | .error offset => fits source offset

end Instances

section Fits

variable {source : List Char} {α β : Type} [Pointing α] [Pointing β]

@[grind ←] theorem fits_unit (a : Unit) : fits source a := trivial
@[grind ←] theorem fits_bool (b : Bool) : fits source b := trivial
@[grind ←] theorem fits_string (s : String) : fits source s := trivial
@[grind ←] theorem fits_text (value : Option String) : fits source value := fun _ _ => trivial
@[grind ←] theorem fits_none : fits source (none : Option α) := nofun
@[grind ←] theorem fits_nil : fits source ([] : List α) := nofun

@[grind =] theorem fits_some (a : α) : fits source (some a) ↔ fits source a :=
  ⟨fun h => h a rfl, fun h _ hx => Option.some.inj hx ▸ h⟩

@[grind =] theorem fits_cons (a : α) (as : List α) :
    fits source (a :: as) ↔ fits source a ∧ fits source as :=
  List.forall_mem_cons

@[grind =] theorem fits_append (as bs : List α) :
    fits source (as ++ bs) ↔ fits source as ∧ fits source bs :=
  List.forall_mem_append

@[grind =] theorem fits_reverse (as : List α) : fits source as.reverse ↔ fits source as := by
  simp [fits]

@[grind =] theorem fits_pair (a : α) (b : β) :
    fits source (a, b) ↔ fits source a ∧ fits source b := Iff.rfl

@[grind =] theorem fits_inl (a : α) : fits source (Sum.inl a : α ⊕ β) ↔ fits source a := Iff.rfl

@[grind =] theorem fits_inr (b : β) : fits source (Sum.inr b : α ⊕ β) ↔ fits source b := Iff.rfl

@[grind →] theorem fits_span {l : Lexeme} (h : fits source l) : fits source l.span := h

@[grind →] theorem fits_span_start {span : Span} (h : fits source span) : fits source span.start :=
  h.1

@[grind →] theorem fits_span_stop {span : Span} (h : fits source span) : fits source span.stop :=
  h.2

theorem fits_two (a b : α) : fits source [a, b] ↔ fits source a ∧ fits source b := by
  rw [fits_cons, fits_cons, and_iff_left fits_nil]

@[grind =] theorem fits_done (a : α) : fits source (ForInStep.done a) ↔ fits source a := Iff.rfl

@[grind =] theorem fits_yield (a : α) : fits source (ForInStep.yield a) ↔ fits source a := Iff.rfl

@[grind ←] theorem fits_chunks (chunks : List Chunk) : fits source chunks :=
  fun _ _ => trivial

@[grind =] theorem fits_ok (a : α) : fits source (Except.ok a : Except Nat α) ↔ fits source a :=
  Iff.rfl

@[grind =] theorem fits_error (offset : Nat) :
    fits source (Except.error offset : Except Nat α) ↔ fits source offset := Iff.rfl

@[grind ←] theorem fits_map {as : List α} {f : α → β} (h : fits source as)
    (hf : ∀ a, fits source a → fits source (f a)) : fits source (as.map f) := by
  intro b hb
  obtain ⟨a, ha, rfl⟩ := List.mem_map.mp hb
  exact hf a (h a ha)

@[grind ←] theorem fits_getD {o : Option α} {a : α} (h : fits source o) (ha : fits source a) :
    fits source (o.getD a) := by
  cases o with
  | none => exact ha
  | some b => exact h b rfl

theorem fits_getLastD {as : List α} {a : α} (h : fits source as) (ha : fits source a) :
    fits source (as.getLast?.getD a) :=
  fits_getD (fun b hb => h b (List.mem_of_getLast? hb)) ha

theorem fits_of_mem {as : List α} {a : α} (h : fits source as) (ha : a ∈ as) : fits source a :=
  h a ha

@[grind =] theorem fits_node (kind : Kind) (span : Span) (children : List Tree) :
    fits source (Tree.node kind span children) ↔
      fits source span.start ∧ fits source span.stop ∧ fits source children :=
  ⟨fun h => by cases h with | node h₁ h₂ h₃ => exact ⟨h₁, h₂, h₃⟩, fun ⟨h₁, h₂, h₃⟩ => .node h₁ h₂ h₃⟩

@[grind =] theorem fits_leaf (kind : Kind) (span : Span) :
    fits source (Tree.leaf kind span) ↔ fits source span.start ∧ fits source span.stop := by
  rw [Tree.leaf, fits_node]
  simp [fits_nil]

@[grind =] theorem fits_leaf_point (kind : Kind) (n : Nat) :
    fits source (Tree.leaf kind (Span.point n)) ↔ fits source n := by
  rw [fits_leaf, Span.point, and_self]

@[grind →] theorem fits_start {t : Tree} (h : fits source t) : fits source t.span.start := by
  obtain ⟨kind, span, children⟩ := t
  exact ((fits_node ..).mp h).1

@[grind →] theorem fits_stop {t : Tree} (h : fits source t) : fits source t.span.stop := by
  obtain ⟨kind, span, children⟩ := t
  exact ((fits_node ..).mp h).2.1

@[grind →] theorem fits_children {t : Tree} (h : fits source t) : fits source t.children := by
  obtain ⟨kind, span, children⟩ := t
  exact ((fits_node ..).mp h).2.2

end Fits

/-! ## Steady steps -/

/-- A step comes from a state to one further on: its answer and that state meet a condition, or the
offset that it reports stands between characters. -/
def Kept {α : Type} (source : List Char) (s : State) (holds : α → State → Prop) :
    EStateM.Result Nat State α → Prop
  | .ok a s' => s.MovesTo source s' ∧ holds a s'
  | .error offset s' => s.MovesTo source s' ∧ Between source offset

/-- A step keeps to the source: from a state that stands in it the step comes to one further on,
and what is answered or reported points between characters. -/
def Steady {α : Type} [Pointing α] (source : List Char) (p : Parse α) : Prop :=
  ∀ c s, s.StandsIn source → Kept source s (fun a _ => fits source a) (p c s)

namespace Parse

/-! ### From one state -/

section From

variable {source : List Char} {α β σ : Type} {c : Context} {s : State}

theorem kept_pure {holds : α → State → Prop} {a : α} (hs : s.StandsIn source) (h : holds a s) :
    Kept source s holds ((pure a : Parse α) c s) :=
  ⟨hs.stays, h⟩

theorem kept_failAt {holds : α → State → Prop} {offset : Nat} (hs : s.StandsIn source)
    (h : Between source offset) : Kept source s holds ((failAt offset : Parse α) c s) :=
  ⟨hs.stays, h⟩

/-- Reading goes on at a place further on. -/
theorem kept_jump {cs : List Char} {pos : Nat} (hfrom : From source pos cs)
    (hle : s.prevStop ≤ pos) :
    Kept source s (fun _ s' => s' = startState cs pos) (jump cs pos c s) :=
  ⟨State.movesTo_startState hfrom hle, rfl⟩

/-- What a step comes to from a state further on. -/
theorem kept_of_movesTo {holds : α → State → Prop} {s' : State} {r : EStateM.Result Nat State α}
    (hmoves : s.MovesTo source s') (h : Kept source s' holds r) : Kept source s holds r := by
  cases r with
  | ok a s'' => exact ⟨hmoves.trans h.1, h.2⟩
  | error offset s'' => exact ⟨hmoves.trans h.1, h.2⟩

theorem kept_and {holds holds' : α → State → Prop} {r : EStateM.Result Nat State α}
    (h : Kept source s holds r) (h' : Kept source s holds' r) :
    Kept source s (fun a s' => holds a s' ∧ holds' a s') r := by
  cases r with
  | ok a s' => exact ⟨h.1, h.2, h'.2⟩
  | error offset s' => exact h

theorem kept_bind {holds : α → State → Prop} {holds' : β → State → Prop} {p : Parse α}
    {f : α → Parse β} (hp : Kept source s holds (p c s))
    (hf : ∀ a s', s.MovesTo source s' → holds a s' → Kept source s' holds' (f a c s')) :
    Kept source s holds' ((p >>= f) c s) := by
  rw [bind_eq]
  cases hrun : p c s with
  | ok a s' =>
    rw [hrun] at hp
    exact kept_of_movesTo hp.1 (hf a s' hp.1 hp.2)
  | error offset s' =>
    rw [hrun] at hp
    exact hp

theorem kept_failHere {holds : α → State → Prop} (hs : s.StandsIn source) :
    Kept source s holds ((failHere : Parse α) c s) := by
  have hrun : ∃ offset, (failHere : Parse α) c s = .error offset s ∧ Between source offset := by
    obtain ⟨⟨t, span, newline⟩, text, rest, stop, front⟩ := s
    -- behind an opening that is not closed the failure is at the opening
    cases t with
    | error offset => exact ⟨offset, rfl, hs.error offset rfl⟩
    | _ => exact ⟨span.start, rfl, hs.start⟩
  obtain ⟨offset, hrun, hbetween⟩ := hrun
  rw [hrun]
  exact ⟨hs.stays, hbetween⟩

theorem kept_get_bind {holds : α → State → Prop} {f : State → Parse α}
    (h : Kept source s holds (f s c s)) :
    Kept source s holds (((get : Parse State) >>= f : Parse α) c s) :=
  h

/-- Nothing comes behind a failure. -/
theorem kept_failHere_bind {holds : β → State → Prop} {f : α → Parse β} (hs : s.StandsIn source) :
    Kept source s holds ((failHere >>= f : Parse β) c s) := by
  have hfail : Kept source s (fun _ _ => False) ((failHere : Parse α) c s) := kept_failHere hs
  exact kept_bind hfail fun _ _ _ h => h.elim

/-- Rounds of a loop that keep a condition of their own on what they hand on and where they are. -/
theorem kept_rounds {step : σ → Parse (σ ⊕ β)} {holds' : β → State → Prop}
    (holds : σ → State → Prop)
    (hstep : ∀ a c s, s.StandsIn source → holds a s → Kept source s
      (fun next s' => next.elim (holds · s') (holds' · s')) (step a c s)) (n : Nat) :
    ∀ a c s, s.StandsIn source → holds a s → Kept source s holds' (rounds step n a c s) := by
  -- on the rounds that are left; without any of them the loop fails where it is
  induction n with
  | zero => exact fun a c s hs _ => kept_failHere hs
  | succ n ih =>
    intro a c s hs ha
    rw [rounds]
    refine kept_bind (hstep a c s hs ha) fun next s' hmoves hnext => ?_
    cases next with
    | inl a' => exact ih a' c s' hmoves.standsIn hnext
    | inr b => exact kept_pure hmoves.standsIn hnext

end From

/-! ### Putting steps together -/

section Steps

variable {source : List Char} {α β σ : Type} [Pointing α] [Pointing β] [Pointing σ]

@[grind ←] theorem steady_pure {a : α} (h : fits source a) : Steady source (pure a : Parse α) :=
  fun _ _ hs => kept_pure hs h

@[grind ←] theorem steady_bind {p : Parse α} {f : α → Parse β} (hp : Steady source p)
    (hf : ∀ a, fits source a → Steady source (f a)) : Steady source (p >>= f) :=
  fun c s hs => kept_bind (hp c s hs) fun a s' hmoves ha => hf a ha c s' hmoves.standsIn

theorem steady_ite {p q : Parse α} {c : Prop} [Decidable c] (hp : Steady source p)
    (hq : Steady source q) : Steady source (if c then p else q) := by
  split
  · exact hp
  · exact hq

/-- A step that only looks at the state. -/
theorem steady_of_looks {p : Parse α}
    (h : ∀ c s, s.StandsIn source → ∃ a, p c s = .ok a s ∧ fits source a) : Steady source p := by
  intro c s hs
  obtain ⟨a, hrun, hfits⟩ := h c s hs
  rw [hrun]
  exact ⟨hs.stays, hfits⟩

@[grind ←] theorem steady_read : Steady source (read : Parse Context) :=
  steady_of_looks fun c _ _ => ⟨c, rfl, trivial⟩

@[grind ←] theorem steady_withReader {p : Parse α} (f : Context → Context) (hp : Steady source p) :
    Steady source (withReader f p : Parse α) :=
  fun c s hs => hp (f c) s hs

@[grind ←] theorem steady_withIn {p : Parse α} (hp : Steady source p) : Steady source (withIn p) :=
  steady_withReader _ hp

@[grind ←] theorem steady_failAt {offset : Nat} (h : fits source offset) :
    Steady source (failAt offset : Parse α) :=
  fun _ _ hs => kept_failAt hs h

@[grind ←] theorem steady_get : Steady source (get : Parse State) :=
  steady_of_looks fun _ s hs => ⟨s, rfl, hs⟩

@[grind ←] theorem steady_cur : Steady source cur :=
  steady_of_looks fun _ s hs => ⟨s.cur, rfl, hs.start, hs.rest.between⟩

@[grind ←] theorem steady_failHere : Steady source (failHere : Parse α) :=
  fun _ _ hs => kept_failHere hs

@[grind ←] theorem steady_attempt {p : Parse α} (hp : Steady source p) :
    Steady source (attempt p) := by
  intro c s hs
  have hkept := hp c s hs
  rw [attempt]
  cases hrun : p c s with
  | ok a s' =>
    rw [hrun] at hkept
    exact ⟨hkept.1, (fits_some a).mpr hkept.2⟩
  | error offset s' => exact ⟨hs.stays, fits_none⟩

@[grind ←] theorem steady_orStay {p : Parse α} (hp : Steady source p) :
    Steady source (orStay p) := by
  intro c s hs
  have hkept := hp c s hs
  rw [orStay]
  cases hrun : p c s with
  | ok a s' =>
    rw [hrun] at hkept
    exact hkept
  | error offset s' =>
    rw [hrun] at hkept
    exact hkept

@[grind ←] theorem steady_ahead (p : Parse Bool) : Steady source (ahead p) := by
  intro c s hs
  rw [ahead]
  cases p c s with
  | ok b s' => exact ⟨hs.stays, trivial⟩
  | error offset s' => exact ⟨hs.stays, trivial⟩

@[grind ←] theorem steady_iterate {init : σ} {step : σ → Parse (σ ⊕ β)} (hinit : fits source init)
    (hstep : ∀ a, fits source a → Steady source (step a)) : Steady source (iterate init step) :=
  fun c s hs => kept_rounds (fun a _ => fits source a) (fun a c s hs ha => hstep a ha c s hs)
    c.bound init c s hs hinit

@[grind ←] theorem steady_forIn {γ : Type} {xs : List γ} {init : α}
    {f : γ → α → Parse (ForInStep α)} (hinit : fits source init)
    (hf : ∀ x a, fits source a → Steady source (f x a)) : Steady source (forIn xs init f) := by
  induction xs generalizing init with
  | nil =>
    rw [List.forIn_nil]
    exact steady_pure hinit
  | cons x xs ih =>
    rw [List.forIn_cons]
    refine steady_bind (hf x init hinit) fun next hnext => ?_
    cases next with
    | done a => exact steady_pure hnext
    | yield a => exact ih hnext

/-! ### The current token -/

@[grind ←] theorem steady_token : Steady source token :=
  steady_of_looks fun _ s _ => ⟨s.cur.token, rfl, trivial⟩

@[grind ←] theorem steady_here : Steady source here :=
  steady_of_looks fun _ s hs => ⟨s.cur.span.start, rfl, hs.start⟩

@[grind ←] theorem steady_prevStop : Steady source prevStop :=
  steady_of_looks fun _ s hs => ⟨s.prevStop, rfl, hs.prev.between⟩

@[grind ←] theorem steady_newline : Steady source newline :=
  steady_of_looks fun _ s _ => ⟨s.cur.newline, rfl, trivial⟩

@[grind ←] theorem steady_dialect : Steady source dialect :=
  steady_of_looks fun c _ _ => ⟨c.dialect, rfl, trivial⟩

@[grind ←] theorem steady_typed : Steady source typed :=
  steady_of_looks fun c _ _ => ⟨c.dialect.typed, rfl, trivial⟩

@[grind ←] theorem steady_peek : Steady source peek :=
  steady_of_looks fun _ _ hs =>
    have hnext := standsIn_startState hs.rest
    ⟨_, rfl, hnext.start, hnext.rest.between⟩

@[grind ←] theorem steady_isMark (m : Mark) : Steady source (isMark m) :=
  steady_of_looks fun _ _ _ => ⟨_, rfl, trivial⟩

@[grind ←] theorem steady_isOp (text : String) : Steady source (isOp text) :=
  steady_of_looks fun _ _ _ => ⟨_, rfl, trivial⟩

@[grind ←] theorem steady_isWord (text : String) : Steady source (isWord text) :=
  steady_of_looks fun _ _ _ => ⟨_, rfl, trivial⟩

@[grind ←] theorem steady_peekMark (m : Mark) : Steady source (peekMark m) :=
  steady_of_looks fun _ _ _ => ⟨_, rfl, trivial⟩

@[grind ←] theorem steady_peekWord (text : String) : Steady source (peekWord text) :=
  steady_of_looks fun _ _ _ => ⟨_, rfl, trivial⟩

@[grind ←] theorem steady_isEnd : Steady source isEnd :=
  steady_of_looks fun _ _ _ => ⟨_, rfl, trivial⟩

/-! ### Moving on -/

@[grind ←] theorem steady_advance : Steady source advance :=
  fun _ _ hs =>
    ⟨State.movesTo_startState hs.rest (Nat.le_trans hs.behind hs.order), trivial⟩

@[grind ←] theorem steady_eat (t : Token) : Steady source (eat t) := by
  unfold eat
  grind

@[grind ←] theorem steady_eatMark (m : Mark) : Steady source (eatMark m) := steady_eat _

@[grind ←] theorem steady_eatOp (text : String) : Steady source (eatOp text) := steady_eat _

@[grind ←] theorem steady_eatWord (name : String) : Steady source (eatWord name) := steady_eat _

@[grind ←] theorem steady_expect (t : Token) : Steady source (expect t) := by
  unfold expect
  grind

@[grind ←] theorem steady_expectMark (m : Mark) : Steady source (expectMark m) := steady_expect _

@[grind ←] theorem steady_expectOp (text : String) : Steady source (expectOp text) :=
  steady_expect _

@[grind ←] theorem steady_expectWord (name : String) : Steady source (expectWord name) :=
  steady_expect _

@[grind ←] theorem steady_eatEnd : Steady source eatEnd := by
  unfold eatEnd
  grind

@[grind ←] theorem steady_expectEnd : Steady source expectEnd := by
  unfold expectEnd
  grind

/-- What stands behind the sign that an operator begins with. -/
theorem movesTo_sign {s : State} {sign : Char} {cs : List Char} (hs : s.StandsIn source)
    (hsign : sign.utf8Size = 1) (htext : s.text = sign :: cs) :
    s.MovesTo source (startState cs (s.cur.span.start + 1)) := by
  refine State.movesTo_startState ((hs.from_text htext).reads (hsign ▸ reads_cons sign cs _)) ?_
  exact Nat.le_trans hs.behind (Nat.le_add_right _ _)

@[grind ←] theorem steady_eatLess : Steady source eatLess := by
  intro c s hs
  unfold eatLess
  split
  · rename_i htext
    exact ⟨movesTo_sign hs (by decide) htext, trivial⟩
  · exact ⟨hs.stays, trivial⟩

@[grind ←] theorem steady_eatGreater : Steady source eatGreater := by
  intro c s hs
  unfold eatGreater
  split
  · rename_i htext
    exact ⟨movesTo_sign hs (by decide) htext, trivial⟩
  · exact ⟨hs.stays, trivial⟩

@[grind ←] theorem steady_expectGreater : Steady source expectGreater := by
  unfold expectGreater
  grind

/-! ### Words, nodes and lists -/

@[grind ←] theorem steady_name : Steady source name := by
  unfold name
  grind

@[grind ←] theorem steady_anyWord : Steady source anyWord := by
  unfold anyWord
  grind

@[grind ←] theorem steady_node {start : Nat} {children : List Tree} (kind : Kind)
    (hstart : fits source start) (hchildren : fits source children) :
    Steady source (node kind start children) := by
  unfold node
  grind

@[grind ←] theorem steady_textFrom (chars : List Char) (start : Nat) :
    Steady source (textFrom chars start) := by
  unfold textFrom
  grind

@[grind ←] theorem steady_commaList {item : Parse Tree} (close : Mark) (h : Steady source item) :
    Steady source (commaList close item) := by
  unfold commaList
  grind

@[grind ←] theorem steady_itemsUntil {item : Parse Tree} (close : Token)
    (h : Steady source item) : Steady source (itemsUntil close item) := by
  unfold itemsUntil
  grind

@[grind ←] theorem steady_andM {p q : Parse Bool} (hp : Steady source p) (hq : Steady source q) :
    Steady source (p <&&> q) := by
  unfold andM
  grind

@[grind ←] theorem steady_orM {p q : Parse Bool} (hp : Steady source p) (hq : Steady source q) :
    Steady source (p <||> q) := by
  unfold orM
  grind

end Steps

end Parse

end TextHarvest.Script
