import TextHarvest.Proofs.Script.Grammar.Expr
import TextHarvest.Proofs.Script.Markup

/-!
# Where attributes stand

The attributes of an opening tag stand behind the name of the element, each from where it starts to
where it stops. A step that makes a node closes it when the node reaches from a given place up to
where the step ends; then nothing that the step reads in between counts.

Main results:

* `kept_openingTag` — the name of a tag and its attributes.
-/

namespace TextHarvest.Script.Grammar

open Parse Chars

variable {source : List Char} {self : Parser} {c : Context} {s : State}

/-! ## Nodes from a place on -/

/-- A step answers a node from a place on up to where the step ends. -/
def Closes (source : List Char) (start : Nat) (p : Parse Tree) : Prop :=
  ∀ c s, s.StandsIn source → start ≤ s.prevStop →
    Kept source s (fun t s' => t.span = ⟨start, s'.prevStop⟩) (p c s)

theorem closes_node (start : Nat) (kind : Kind) (children : List Tree) :
    Closes source start (node kind start children) :=
  fun _ _ hs _ => ⟨hs.stays, rfl⟩

theorem closes_bind {α : Type} [Pointing α] {start : Nat} {p : Parse α} {f : α → Parse Tree}
    (hp : Steady source p) (hf : ∀ a, Closes source start (f a)) :
    Closes source start (p >>= f) := fun c s hs hstart =>
  kept_bind (hp c s hs) fun a s' hmoves _ =>
    hf a c s' hmoves.standsIn (Nat.le_trans hstart hmoves.onward)

theorem closes_ite {start : Nat} {p q : Parse Tree} {b : Prop} [Decidable b]
    (hp : Closes source start p) (hq : Closes source start q) :
    Closes source start (if b then p else q) := by
  split
  · exact hp
  · exact hq

/-! ## Attributes -/

/-- A tree stands behind a place. -/
def Behind (n : Nat) (t : Tree) : Prop :=
  n ≤ t.span.start ∧ t.span.start ≤ t.span.stop

/-- A name with hyphens ends behind where the current token starts. -/
theorem kept_markupWord (hs : s.StandsIn source) :
    Kept source s (fun _ s' => s.cur.span.start ≤ s'.prevStop) (markupWord c s) := by
  unfold markupWord
  refine kept_get_bind ?_
  cases hcur : s.cur.token with
  | word w =>
    refine kept_bind (kept_jump ((hs.from_word hcur).reads (reads_dropWhile _ _ _)) ?_) ?_
    · exact Nat.le_trans hs.behind (Nat.le_add_right _ _)
    · rintro _ s' hmoves rfl
      exact kept_pure hmoves.standsIn (Nat.le_add_right _ _)
  | _ => exact kept_failHere hs

/-- What closes the node of a step that starts at the current token stands behind the last one. -/
theorem Closes.behind {start : Nat} {p : Parse Tree} {s s' : State} (hp : Closes source start p)
    (hs : s.StandsIn source) (hstart : s.cur.span.start = start) (hmoves : s.MovesTo source s')
    (hle : start ≤ s'.prevStop) : Kept source s' (fun t _ => Behind s.prevStop t) (p c s') := by
  have hkept := hp c s' hmoves.standsIn hle
  cases hrun : p c s' with
  | ok t s'' =>
    rw [hrun] at hkept
    obtain ⟨hmoves', hspan⟩ := hkept
    -- the node begins where the step began, which is behind the place
    refine ⟨hmoves', ?_⟩
    dsimp only at hspan ⊢
    rw [Behind, hspan]
    exact ⟨hstart ▸ hs.behind, Nat.le_trans hle hmoves'.onward⟩
  | error offset s'' =>
    rw [hrun] at hkept
    exact hkept

/-- An attribute stands from the current token on. -/
theorem kept_markupAttribute (h : ∀ goal, Steady source (self goal)) (hs : s.StandsIn source) :
    Kept source s (fun t _ => Behind s.prevStop t) (markupAttribute self c s) := by
  have hnext : s.MovesTo source s.next :=
    State.movesTo_startState hs.rest (Nat.le_trans hs.behind hs.order)
  unfold markupAttribute
  rw [bind_eq, here_eq]
  dsimp only
  rw [bind_eq]
  -- a spread in braces, or a name with an optional value
  by_cases hbrace : s.cur.token = .mark .lbrace
  · rw [eatMark, eat_eq c s hbrace]
    dsimp only
    rw [if_pos rfl]
    refine kept_of_movesTo hnext (Closes.behind ?_ hs rfl hnext hs.order)
    refine closes_bind (steady_expectMark _) fun _ => ?_
    refine closes_bind (steady_withIn (h .assign)) fun _ => ?_
    exact closes_bind (steady_expectMark _) fun _ => closes_node _ _ _
  · rw [eatMark, eat_ne c s hbrace]
    dsimp only
    rw [if_neg Bool.false_ne_true]
    refine kept_bind (kept_markupWord hs) fun first s' hmoves hle => ?_
    refine Closes.behind ?_ hs rfl hmoves hle
    have hvalue (attrName : AttrName) : Closes source s.cur.span.start (do
        if ← eatOp "=" then
          let v ← attributeValue self
          node (.attribute attrName) s.cur.span.start [v]
        else node (.attribute attrName) s.cur.span.start []) := by
      refine closes_bind (steady_eatOp _) fun _ => closes_ite ?_ (closes_node _ _ _)
      exact closes_bind (steady_attributeValue h) fun _ => closes_node _ _ _
    refine closes_bind (steady_eatMark _) fun _ => closes_ite ?_ ?_
    · refine closes_bind steady_markupWord fun _ => ?_
      exact closes_bind (steady_pure (fits_attrName _)) hvalue
    · exact closes_bind (steady_pure (fits_attrName _)) hvalue

theorem Behind.mono {m n : Nat} {t : Tree} (hmn : m ≤ n) (h : Behind n t) : Behind m t :=
  ⟨Nat.le_trans hmn h.1, h.2⟩

/-- Attributes stand behind the token before them. -/
theorem kept_markupAttributes (h : ∀ goal, Steady source (self goal)) (hs : s.StandsIn source) :
    Kept source s (fun ts _ => ∀ t ∈ ts, Behind s.prevStop t) (markupAttributes self c s) := by
  unfold markupAttributes
  -- each attribute begins behind the end of the tag's name, and the rounds only move on
  refine kept_rounds (fun acc s' => s.prevStop ≤ s'.prevStop ∧ ∀ t ∈ acc, Behind s.prevStop t) ?_
    c.bound [] c s hs ⟨Nat.le_refl _, nofun⟩
  rintro acc c s' hs' ⟨hle, hacc⟩
  refine kept_bind (steady_startsWith '/' c s' hs') fun slash s₁ hs₁ _ => ?_
  refine kept_bind (steady_startsWith '>' c s₁ hs₁.standsIn) fun greater s₂ hs₂ _ => ?_
  have hle₂ : s.prevStop ≤ s₂.prevStop := Nat.le_trans hle (Nat.le_trans hs₁.onward hs₂.onward)
  cases hends : slash || greater with
  | true => exact kept_pure (c := c) hs₂.standsIn fun t ht => hacc t (List.mem_reverse.mp ht)
  | false =>
    rw [if_neg Bool.false_ne_true]
    refine kept_bind (kept_markupAttribute h hs₂.standsIn) fun t s₃ hs₃ ht => ?_
    exact kept_pure hs₃.standsIn
      ⟨Nat.le_trans hle₂ hs₃.onward, List.forall_mem_cons.mpr ⟨ht.mono hle₂, hacc⟩⟩

/-! ## Opening tags -/

/-- The plain name of an element stops behind where it starts, and the next token comes later. -/
theorem kept_tagName (hs : s.StandsIn source) :
    Kept source s (fun tag s' => ∀ w place, tag = .plain w place →
      Between source place.stop ∧ place.stop ≤ s'.prevStop) (tagName c s) := by
  unfold tagName
  refine kept_bind (steady_here c s hs) fun start s₁ hs₁ _ => ?_
  refine kept_bind (steady_markupWord c s₁ hs₁.standsIn) fun first s₂ hs₂ _ => ?_
  rw [bind_eq, prevStop_eq]
  refine kept_bind (steady_eatMark .colon c s₂ hs₂.standsIn) fun colon s₃ hs₃ _ => ?_
  -- a name with a namespace or a path is not plain, so nothing is asked of its place
  cases colon with
  | true =>
    refine kept_bind (steady_markupWord c s₃ hs₃.standsIn) fun second s₄ hs₄ _ => ?_
    exact kept_pure hs₄.standsIn nofun
  | false =>
    refine kept_bind (steady_isMark .dot c s₃ hs₃.standsIn) fun dot s₄ hs₄ _ => ?_
    cases dot with
    | true =>
      refine kept_bind (steady_iterate ((fits_cons first []).mpr ⟨trivial, fits_nil⟩)
        (fun acc hacc => ?_) c s₄ hs₄.standsIn) fun path s₅ hs₅ _ => ?_
      · grind
      · exact kept_pure hs₅.standsIn nofun
    | false =>
      refine kept_pure (c := c) hs₄.standsIn ?_
      rintro w place ⟨⟩
      exact ⟨hs₂.standsIn.prev.between, Nat.le_trans hs₃.onward hs₄.onward⟩

/-- The attributes of an opening tag stand behind the name. -/
theorem kept_openingTag (h : ∀ goal, Steady source (self goal)) (hs : s.StandsIn source) :
    Kept source s (fun found _ => fits source found.2 ∧ ∀ w place, found.1 = .plain w place →
      Between source place.stop ∧ ∀ t ∈ found.2, Behind place.stop t) (openingTag self c s) := by
  unfold openingTag
  refine kept_bind (steady_eatLess c s hs) fun less s₁ hs₁ _ => ?_
  cases less with
  | false => exact kept_failHere_bind hs₁.standsIn
  | true =>
    refine kept_bind (kept_tagName hs₁.standsIn) fun tag s₂ hs₂ htag => ?_
    -- the attributes stand behind the name, with type arguments between them or without
    have hattributes {s' : State} (hmoves : s₂.MovesTo source s') : Kept source s'
        (fun found _ => fits source found.2 ∧ ∀ w place, found.1 = .plain w place →
          Between source place.stop ∧ ∀ t ∈ found.2, Behind place.stop t)
        ((do return (tag, ← markupAttributes self) : Parse (TagName × List Tree)) c s') := by
      refine kept_bind (kept_and (steady_markupAttributes h c s' hmoves.standsIn)
        (kept_markupAttributes h hmoves.standsIn)) ?_
      rintro ts s₃ hs₃ ⟨hfits, hbehind⟩
      refine kept_pure hs₃.standsIn ⟨hfits, fun w place hplain => ?_⟩
      obtain ⟨hstop, hle⟩ := htag w place hplain
      exact ⟨hstop, fun t ht => (hbehind t ht).mono (Nat.le_trans hle hmoves.onward)⟩
    refine kept_bind (steady_typed c s₂ hs₂.standsIn) fun isTyped s₃ hs₃ _ => ?_
    cases isTyped with
    | true =>
      refine kept_bind (steady_typeArguments? h c s₃ hs₃.standsIn) fun _ s₄ hs₄ _ => ?_
      exact hattributes (hs₃.trans hs₄)
    | false => exact hattributes hs₃

end TextHarvest.Script.Grammar
