import Mathlib.Logic.Relation
import TextHarvest.Component.Blocks
import TextHarvest.Proofs.Component.Pieces
import TextHarvest.Proofs.Patch.Regions

/-!
# Where the blocks of a component stand

Splitting a file moves a cursor over it, and every block that is kept is cut out of the text behind
the cursor. The contents of blocks therefore follow each other in the file, with at least the tags
between them.

Main results:

* `SplitStep`, `exists_splitSteps` — a file is split step by step, up to its end or to an error.
* `exists_endSearch` — how the search for the end of a template goes on at the next tag.
* `exists_laidOut` — the blocks of a file are regions of it that stand apart, and its scripts are
  listed in the order in which they stand.
-/

namespace TextHarvest.Component

/-! ## Cursors that move over a file -/

/-- Behind a tag a cursor is ahead. -/
theorem ahead_afterTag (c : Cursor) : c.Ahead (afterTag c) := by
  obtain ⟨cs, pos, prev⟩ := c
  rcases exists_closesTag cs none with hopen | ⟨a, b, rfl, hclosed⟩
  · rw [afterTag_open hopen]
    exact ⟨cs, (List.append_nil cs).symm, rfl⟩
  · rw [afterTag_append hclosed]
    exact Cursor.ahead_mk a b pos prev _

/-- So it is behind a comment. -/
theorem ahead_afterComment (c : Cursor) : c.Ahead (afterComment c) := by
  rw [afterComment]
  split
  · rename_i stop hseek
    have hmark : commentClose ≠ [] := by decide
    exact (c.ahead_skip 4).trans ((Cursor.ahead_of_seek? hmark hseek).trans (stop.ahead_skip 3))
  · exact c.ahead_toEnd

/-- And at the end of a tag. -/
theorem ahead_of_attributes {base : Nat} {c stop : Cursor} {attrs : List Attribute}
    (h : attributes base c = (attrs, some stop)) : c.Ahead stop := by
  obtain ⟨cs, pos, prev⟩ := c
  obtain ⟨items, rest, rfl, hfit, hend⟩ := exists_items cs
  rw [attributes, readAttributes_items hend hfit pos prev [] (Nat.lt_succ_self _),
    Prod.mk.injEq] at h
  have hstop := h.2
  -- the text splits into items and their end; a tag that is closed ends behind its slash
  cases hend with
  | eof => cases hstop
  | mark cs =>
    obtain rfl := Option.some.inj hstop
    exact Cursor.ahead_mk _ _ _ _ _
  | slash cs =>
    obtain rfl := Option.some.inj hstop
    refine ⟨Item.written items ++ ['/'], by simp, ?_⟩
    rw [Chars.size_append, ← Nat.add_assoc]
    rfl

/-! ## The end of a template -/

/-- A tag that opens a template, or one that closes it. -/
inductive TemplateTag where
  | opening
  | closing
  deriving DecidableEq, Repr

/-- The tag of a template at a cursor. One that closes itself is none. -/
def templateTag? (c : Cursor) : Option TemplateTag :=
  if c.sees templateClose && endsName (c.rest.drop 10) then some .closing
  else if c.sees templateOpen && endsName (c.rest.drop 9) && !(tagEnd? c).any isSelfClosing then
    some .opening
  else none

/-- A closing tag of a template is seen as one. -/
theorem sees_of_templateTag? {c : Cursor} (h : templateTag? c = some .closing) :
    c.sees templateClose = true := by
  rw [templateTag?] at h
  split at h
  · rename_i hclose
    exact (Bool.and_eq_true_iff.mp hclose).1
  · split at h
    · cases h
    · cases h

/-- The search for the end of a template at the next `<`: the closing tag stands there, or it goes
on behind a comment or behind the `<`, with one template more or less open after a tag of one. -/
inductive EndSearch (fuel depth : Nat) (start : Cursor) : Cursor → Prop
  | comment {close : Cursor} (hsees : start.sees commentOpen = true)
      (hmore : templateEndFrom fuel depth (afterComment start) = some close) :
      EndSearch fuel depth start close
  | found (hsees : ¬start.sees commentOpen = true) (htag : templateTag? start = some .closing)
      (hone : depth ≤ 1) : EndSearch fuel depth start start
  | closing {close : Cursor} (hsees : ¬start.sees commentOpen = true)
      (htag : templateTag? start = some .closing) (hmany : 1 < depth)
      (hmore : templateEndFrom fuel (depth - 1) start.next = some close) :
      EndSearch fuel depth start close
  | opening {close : Cursor} (hsees : ¬start.sees commentOpen = true)
      (htag : templateTag? start = some .opening)
      (hmore : templateEndFrom fuel (depth + 1) start.next = some close) :
      EndSearch fuel depth start close
  | other {close : Cursor} (hsees : ¬start.sees commentOpen = true)
      (htag : templateTag? start = none)
      (hmore : templateEndFrom fuel depth start.next = some close) :
      EndSearch fuel depth start close

/-- The search for the end of a template looks at the next sign that opens a tag. -/
theorem exists_endSearch {fuel depth : Nat} {c close : Cursor}
    (h : templateEndFrom (fuel + 1) depth c = some close) :
    ∃ start, c.seek? ['<'] = some start ∧ EndSearch fuel depth start close := by
  rw [templateEndFrom] at h
  split at h
  · cases h
  rename_i start hseek
  refine ⟨start, hseek, ?_⟩
  by_cases hsees : start.sees commentOpen = true
  · rw [if_pos hsees] at h
    exact .comment hsees h
  rw [if_neg hsees] at h
  by_cases hclose : (start.sees templateClose && endsName (start.rest.drop 10)) = true
  · have htag : templateTag? start = some .closing := by rw [templateTag?, if_pos hclose]
    rw [if_pos hclose] at h
    split at h
    · rename_i hone
      obtain rfl := Option.some.inj h
      exact .found hsees htag hone
    · rename_i hmany
      exact .closing hsees htag (Nat.lt_of_not_le hmany) h
  rw [if_neg hclose] at h
  by_cases hopen : (start.sees templateOpen && endsName (start.rest.drop 9)) = true
  · rw [if_pos hopen] at h
    by_cases hself : (tagEnd? start).any isSelfClosing = true
    · -- a template that closes itself counts on neither side
      have htag : templateTag? start = none := by
        rw [templateTag?, if_neg hclose, hself, Bool.not_true, Bool.and_false,
          if_neg Bool.false_ne_true]
      rw [if_pos hself] at h
      exact .other hsees htag h
    · have htag : templateTag? start = some .opening := by
        rw [templateTag?, if_neg hclose, hopen, Bool.eq_false_iff.mpr hself]
        rfl
      rw [if_neg hself] at h
      exact .opening hsees htag h
  · have htag : templateTag? start = none := by
      rw [templateTag?, if_neg hclose, Bool.eq_false_iff.mpr hopen]
      rfl
    rw [if_neg hopen] at h
    exact .other hsees htag h

/-- The end of a template is ahead. -/
theorem ahead_of_templateEndFrom {fuel depth : Nat} {c close : Cursor}
    (h : templateEndFrom fuel depth c = some close) : c.Ahead close := by
  -- by induction on the tags that are passed in search of it
  induction fuel generalizing depth c with
  | zero => cases h
  | succ fuel ih =>
    obtain ⟨start, hseek, hsearch⟩ := exists_endSearch h
    have hstart : c.Ahead start := Cursor.ahead_of_seek? (by decide) hseek
    have hnext : c.Ahead start.next := hstart.trans start.ahead_next
    cases hsearch with
    | comment hsees hmore => exact hstart.trans ((ahead_afterComment start).trans (ih hmore))
    | found => exact hstart
    | closing hsees htag hmany hmore => exact hnext.trans (ih hmore)
    | opening hsees htag hmore => exact hnext.trans (ih hmore)
    | other hsees htag hmore => exact hnext.trans (ih hmore)

/-- The end of a block is ahead. -/
theorem ahead_of_contentEnd? {name : String} {c close : Cursor}
    (h : contentEnd? name c = some close) : c.Ahead close := by
  rw [contentEnd?] at h
  split at h
  · exact ahead_of_templateEndFrom h
  · exact Cursor.ahead_of_seek? (List.cons_ne_nil _ _) h

/-! ## Splitting step by step -/

/-- A file is split by its characters. -/
theorem split_ofList (cs : List Char) : split (String.ofList cs) =
    if maxFileSize < Chars.size cs then .error (.tooLarge (Chars.size cs))
    else splitFrom (cs.length + 1) ⟨cs, 0, none⟩ {} := by
  rw [split, String.utf8ByteSize_eq, String.toList_ofList, String.length_ofList]

/-- What a search for a tag finds. -/
theorem exists_of_seek_lt {c start : Cursor} (hseek : c.seek? ['<'] = some start) :
    (∃ more, start.rest = '<' :: more) ∧ c.Ahead start := by
  have hahead := Cursor.ahead_of_seek? (by decide) hseek
  obtain ⟨body, rest, -, -, rfl⟩ := Cursor.exists_seek? (by decide) hseek
  exact ⟨⟨rest, rfl⟩, hahead⟩

/-- The next tag from a cursor on: where it starts and where its name ends. -/
structure NextTag (c start nameEnd : Cursor) : Prop where
  seek : c.seek? ['<'] = some start
  comment : start.sees commentOpen = false
  ends : start.next.skipWhile isNameChar = nameEnd
  named : nameEnd.pos ≠ start.next.pos

/-- A block of a file between two places. -/
def blockBetween (attrs : List Attribute) (after close : Cursor) : Block :=
  { content := after.textTo close.pos
    offset := after.pos
    lang := ((attrs.find? (·.name == "lang")).bind (·.value)).map (·.text)
    setup := attrs.any (·.name == "setup") }

/-- One step of splitting a file: where it goes on, and with which blocks. -/
inductive SplitStep : Cursor × Blocks → Cursor × Blocks → Prop
  | comment {c start : Cursor} {blocks : Blocks} (hseek : c.seek? ['<'] = some start)
      (hsees : start.sees commentOpen = true) : SplitStep (c, blocks) (afterComment start, blocks)
  | nameless {c start : Cursor} {blocks : Blocks} (hseek : c.seek? ['<'] = some start)
      (hsees : start.sees commentOpen = false)
      (hname : (start.next.skipWhile isNameChar).pos = start.next.pos) :
      SplitStep (c, blocks) (start.next, blocks)
  | selfClosing {c start nameEnd stop : Cursor} {blocks : Blocks} (htag : NextTag c start nameEnd)
      (hstop : (attributes 0 nameEnd).2 = some stop) (hself : isSelfClosing stop = true) :
      SplitStep (c, blocks) (stop.next, blocks)
  | block {c start nameEnd stop close : Cursor} {blocks more : Blocks}
      (htag : NextTag c start nameEnd) (hstop : (attributes 0 nameEnd).2 = some stop)
      (hself : isSelfClosing stop = false)
      (hclose : contentEnd? (start.next.textTo nameEnd.pos) stop.next = some close)
      (hadd : addBlock blocks (start.next.textTo nameEnd.pos)
        (blockBetween (attributes 0 nameEnd).1 stop.next close) = .ok more) :
      SplitStep (c, blocks) (afterTag close, more)

/-- The next tag is ahead, and its name is behind its sign. -/
theorem NextTag.ahead {c start nameEnd : Cursor} (h : NextTag c start nameEnd) :
    c.Ahead start.next ∧ start.next.Ahead nameEnd := by
  obtain ⟨-, hstart⟩ := exists_of_seek_lt h.seek
  refine ⟨hstart.trans start.ahead_next, ?_⟩
  rw [← h.ends]
  exact start.next.ahead_skipWhile isNameChar

/-- The end of a tag is ahead of its sign. -/
theorem NextTag.ahead_stop {c start nameEnd stop : Cursor} (h : NextTag c start nameEnd)
    (hstop : (attributes 0 nameEnd).2 = some stop) : start.next.Ahead stop.next :=
  h.ahead.2.trans ((ahead_of_attributes (Prod.ext rfl hstop)).trans stop.ahead_next)

/-- A step goes ahead. -/
theorem SplitStep.ahead {s t : Cursor × Blocks} (h : SplitStep s t) : s.1.Ahead t.1 := by
  cases h with
  | comment hseek hsees =>
    exact (exists_of_seek_lt hseek).2.trans (ahead_afterComment _)
  | nameless hseek =>
    exact (exists_of_seek_lt hseek).2.trans (Cursor.ahead_next _)
  | selfClosing htag hstop => exact htag.ahead.1.trans (htag.ahead_stop hstop)
  | block htag hstop hself hclose =>
    exact htag.ahead.1.trans ((htag.ahead_stop hstop).trans
      ((ahead_of_contentEnd? hclose).trans (ahead_afterTag _)))

/-- What becomes of a block. -/
theorem addBlock_cases {blocks more : Blocks} {name : String} {b : Block}
    (h : addBlock blocks name b = .ok more) :
    more = blocks ∨
      name = "template" ∧ blocks.template = none ∧ more = { blocks with template := some b } ∨
      name = "script" ∧ blocks.scripts.length < maxScripts ∧
        more = { blocks with scripts := blocks.scripts ++ [b] } := by
  rw [addBlock] at h
  split at h
  · rename_i hname
    obtain rfl := Except.ok.inj h
    cases htemplate : blocks.template with
    | none => exact Or.inr (Or.inl ⟨beq_iff_eq.mp hname, rfl, rfl⟩)
    | some template =>
      left
      obtain ⟨_, scripts⟩ := blocks
      dsimp only at htemplate
      rw [htemplate]
      rfl
  · split at h
    · rename_i hname
      -- a script is kept as long as there are not too many of them
      dsimp only at h
      split at h
      · cases h
      · rename_i hcount
        rw [List.length_append, List.length_singleton] at hcount
        exact Or.inr (Or.inr ⟨beq_iff_eq.mp hname, by omega, (Except.ok.inj h).symm⟩)
    · exact Or.inl (Except.ok.inj h).symm

/-- A block is refused when there are too many scripts. -/
theorem exists_of_addBlock_error {blocks : Blocks} {name : String} {b : Block} {e : BlockError}
    (h : addBlock blocks name b = .error e) : ∃ count, e = .tooManyScripts count := by
  rw [addBlock] at h
  split at h
  · cases h
  split at h
  · dsimp only at h
    split at h
    · exact ⟨_, (Except.error.inj h).symm⟩
    · cases h
  · cases h

/-- What stands at the next mark from a cursor on. -/
theorem seek_lt_cases (c : Cursor) : c.seek? ['<'] = none ∨
    ∃ start, c.seek? ['<'] = some start ∧ (start.sees commentOpen = true ∨
      start.sees commentOpen = false ∧
        ((start.next.skipWhile isNameChar).pos = start.next.pos ∨
          NextTag c start (start.next.skipWhile isNameChar))) := by
  cases hseek : c.seek? ['<'] with
  | none => exact Or.inl rfl
  | some start =>
    -- there is an angle: a comment, a lone one, or a tag
    refine Or.inr ⟨start, rfl, ?_⟩
    cases hsees : start.sees commentOpen with
    | true => exact Or.inl rfl
    | false =>
      refine Or.inr ⟨rfl, ?_⟩
      by_cases hname : (start.next.skipWhile isNameChar).pos = start.next.pos
      · exact Or.inl hname
      · exact Or.inr ⟨hseek, hsees, rfl, hname⟩

/-- How splitting a file ends: with the blocks so far, or with an error. -/
inductive SplitEnds (s : Cursor × Blocks) : Except BlockError Blocks → Prop
  | ok : SplitEnds s (.ok s.2)
  | unclosed {start nameEnd : Cursor} (htag : NextTag s.1 start nameEnd) :
      SplitEnds s (.error (.unclosed (start.next.textTo nameEnd.pos) start.pos))
  | tooMany (count : Nat) : SplitEnds s (.error (.tooManyScripts count))

/-- Splitting goes one step on, or ends. -/
def GoesOn (fuel : Nat) (c : Cursor) (blocks : Blocks) : Prop :=
  SplitEnds (c, blocks) (splitFrom (fuel + 1) c blocks) ∨
    ∃ t, SplitStep (c, blocks) t ∧ splitFrom (fuel + 1) c blocks = splitFrom fuel t.1 t.2

/-- At a tag: whether it ends, closes itself, is closed, and has room. -/
theorem goesOn_tag {c start : Cursor} (htag : NextTag c start (start.next.skipWhile isNameChar))
    (fuel : Nat) (blocks : Blocks) : GoesOn fuel c blocks := by
  have hnamed : ((start.next.skipWhile isNameChar).pos == start.next.pos) = false :=
    beq_eq_false_iff_ne.mpr htag.named
  rw [GoesOn, splitFrom, htag.seek]
  simp only [htag.comment, hnamed, Bool.false_eq_true, if_false]
  -- the tag ends, its content ends, and the block finds its place; or the split stops
  cases hstop : (attributes 0 (start.next.skipWhile isNameChar)).2 with
  | none => exact Or.inl (.unclosed htag)
  | some stop =>
    dsimp only
    cases hself : isSelfClosing stop with
    | true => exact Or.inr ⟨_, .selfClosing htag hstop hself, rfl⟩
    | false =>
      simp only [Bool.false_eq_true, if_false]
      cases hclose : contentEnd?
          (start.next.textTo (start.next.skipWhile isNameChar).pos) stop.next with
      | none => exact Or.inl (.unclosed htag)
      | some close =>
        dsimp only
        cases hadd : addBlock blocks
            (start.next.textTo (start.next.skipWhile isNameChar).pos)
            (blockBetween (attributes 0 (start.next.skipWhile isNameChar)).1 stop.next close) with
        | error e =>
          obtain ⟨count, rfl⟩ := exists_of_addBlock_error hadd
          rw [blockBetween] at hadd
          simp only [hadd]
          exact Or.inl (.tooMany count)
        | ok more =>
          have hstep := SplitStep.block htag hstop hself hclose hadd
          rw [blockBetween] at hadd
          simp only [hadd]
          exact Or.inr ⟨_, hstep, rfl⟩

/-- A step is taken, or the file is done. -/
theorem goesOn (fuel : Nat) (c : Cursor) (blocks : Blocks) : GoesOn fuel c blocks := by
  rcases seek_lt_cases c with hseek | ⟨start, hseek, hsees | ⟨hsees, hname | htag⟩⟩
  · -- no tag is left
    rw [GoesOn, splitFrom, hseek]
    exact Or.inl .ok
  · refine Or.inr ⟨_, .comment hseek hsees, ?_⟩
    rw [splitFrom, hseek]
    exact if_pos hsees
  · -- a mark without a name
    refine Or.inr ⟨_, .nameless hseek hsees hname, ?_⟩
    rw [splitFrom, hseek]
    simp only [hsees, hname, beq_self_eq_true, Bool.false_eq_true, if_true, if_false]
  · exact goesOn_tag htag fuel blocks

/-- Splitting a file is a run of steps and an end. -/
theorem exists_splitSteps (fuel : Nat) (c : Cursor) (blocks : Blocks) :
    ∃ t, Relation.ReflTransGen SplitStep (c, blocks) t ∧
      SplitEnds t (splitFrom fuel c blocks) := by
  induction fuel generalizing c blocks with
  | zero => exact ⟨(c, blocks), .refl, .ok⟩
  | succ fuel ih =>
    rcases goesOn fuel c blocks with hends | ⟨⟨c', more⟩, hstep, hgo⟩
    · exact ⟨(c, blocks), .refl, hends⟩
    · obtain ⟨t, hsteps, hends⟩ := ih c' more
      rw [hgo]
      exact ⟨t, .head hstep hsteps, hends⟩

/-! ## Blocks in their places -/

/-- The region that the content of a block takes in its file. -/
def Block.region (b : Block) : Region :=
  ⟨b.offset, b.content.toList⟩

/-- Blocks that lie ahead of a cursor lie ahead of an earlier one. -/
theorem laidOut_of_ahead {rs : List Region} {c c' : Cursor} (h : c.Ahead c')
    (hlaid : LaidOut rs c'.pos c'.rest) : LaidOut rs c.pos c.rest := by
  obtain ⟨cs, hcs, hpos⟩ := h
  rw [hcs]
  rw [hpos] at hlaid
  exact hlaid.gap_append cs

/-- What is added to some blocks when the text from a cursor on is split: the blocks `kept`, in the
order in which they stand there. -/
structure Adds (c : Cursor) (before after : Blocks) (kept : List Block) : Prop where
  laidOut : LaidOut (kept.map Block.region) c.pos c.rest
  exists_parts : ∃ (template : Option Block) (scripts : List Block),
    after.template = before.template.or template ∧ after.scripts = before.scripts ++ scripts ∧
      (before.template.isSome = true → template = none) ∧ scripts.Sublist kept ∧
      kept.Perm (scripts ++ template.toList)

/-- A step that adds no block. -/
theorem Adds.nothing (c : Cursor) (blocks : Blocks) : Adds c blocks blocks [] where
  laidOut := .nil _ _
  exists_parts := ⟨none, [], by simp, by simp, by simp, .slnil, .nil⟩

/-- A step that starts further behind. -/
theorem Adds.of_ahead {c c' : Cursor} {before after : Blocks} {kept : List Block}
    (hahead : c.Ahead c') (h : Adds c' before after kept) : Adds c before after kept where
  laidOut := laidOut_of_ahead hahead h.laidOut
  exists_parts := h.exists_parts

/-- A block that is kept stands in front of those behind it. -/
theorem Adds.block {c after close : Cursor} {name : String} {blocks more out : Blocks} {b : Block}
    {kept : List Block} (hafter : c.Ahead after) (hgap : c.pos < after.pos)
    (hclose : after.Ahead close) (hoffset : b.offset = after.pos)
    (hcontent : b.content = after.textTo close.pos) (hadd : addBlock blocks name b = .ok more)
    (h : Adds close more out kept) : ∃ kept, Adds c blocks out kept := by
  have hfront : LaidOut ((b :: kept).map Block.region) c.pos c.rest := by
    obtain ⟨gap, hrest, hpos⟩ := hafter
    obtain ⟨content, hrest', hpos', htext⟩ := hclose.exists_textTo
    have hchars : b.region.content = content := by
      rw [Block.region, hcontent, htext, String.toList_ofList]
    have hne : gap ≠ [] := by
      rintro rfl
      rw [Chars.size_nil] at hpos
      omega
    have hstop : b.region.stop = close.pos := by
      rw [Region.stop, hchars, hpos']
      exact congrArg (· + Chars.size content) hoffset
    rw [hrest, hrest', ← hchars, List.map_cons]
    refine .cons hne ?_ ?_
    · exact hoffset.trans hpos
    · rw [hstop]
      exact h.laidOut
  obtain ⟨template, scripts, htemplate, hscripts, hone, hsub, hperm⟩ := h.exists_parts
  rcases addBlock_cases hadd with rfl | ⟨-, hnone, rfl⟩ | ⟨-, -, rfl⟩
  -- passed over, the template, or one more script
  · exact ⟨kept, h.of_ahead (hafter.trans hclose)⟩
  · obtain rfl : template = none := hone rfl
    refine ⟨b :: kept, hfront, some b, scripts, ?_, hscripts, ?_, hsub.cons b, ?_⟩
    · rw [htemplate, hnone]
      rfl
    · rw [hnone]
      intro hsome
      cases hsome
    · rw [Option.toList_none, List.append_nil] at hperm
      exact (hperm.cons b).trans (List.perm_append_singleton b scripts).symm
  · refine ⟨b :: kept, hfront, template, b :: scripts, htemplate, ?_, hone, hsub.cons_cons b, ?_⟩
    · rw [hscripts, List.append_assoc]
      rfl
    · exact hperm.cons b

/-- What a step adds lies in front of what later steps add. -/
theorem SplitStep.adds {s t : Cursor × Blocks} {out : Blocks} {kept : List Block}
    (hstep : SplitStep s t) (h : Adds t.1 t.2 out kept) : ∃ kept, Adds s.1 s.2 out kept := by
  have hahead := hstep.ahead
  cases hstep with
  | comment => exact ⟨kept, h.of_ahead hahead⟩
  | nameless => exact ⟨kept, h.of_ahead hahead⟩
  | selfClosing => exact ⟨kept, h.of_ahead hahead⟩
  | @block c start nameEnd stop close blocks more htag hstop hself hclose hadd =>
    obtain ⟨hnext, hname⟩ := htag.ahead
    have hbehind : nameEnd.Ahead stop.next :=
      (ahead_of_attributes (Prod.ext rfl hstop)).trans stop.ahead_next
    -- the name of the tag makes the gap in front of its content
    have hnamed : start.next.pos < nameEnd.pos :=
      Nat.lt_of_le_of_ne hname.pos_le (Ne.symm htag.named)
    have hgap : c.pos < stop.next.pos :=
      Nat.lt_of_le_of_lt hnext.pos_le (Nat.lt_of_lt_of_le hnamed hbehind.pos_le)
    exact Adds.block (hnext.trans (hname.trans hbehind)) hgap (ahead_of_contentEnd? hclose) rfl rfl
      hadd (h.of_ahead (ahead_afterTag close))

/-- What all steps add lies in order. -/
theorem adds_of_steps {s t : Cursor × Blocks} (hsteps : Relation.ReflTransGen SplitStep s t) :
    ∃ kept, Adds s.1 s.2 t.2 kept := by
  -- from the end of the run back to its start
  induction hsteps using Relation.ReflTransGen.head_induction_on with
  | refl => exact ⟨[], .nothing _ _⟩
  | head hstep _ ih =>
    obtain ⟨kept, hkept⟩ := ih
    exact hstep.adds hkept

/-- The blocks that are found from a cursor on stand behind it. -/
theorem exists_adds {fuel : Nat} {c : Cursor} {blocks out : Blocks}
    (h : splitFrom fuel c blocks = .ok out) : ∃ kept, Adds c blocks out kept := by
  obtain ⟨t, hsteps, hends⟩ := exists_splitSteps fuel c blocks
  rw [h] at hends
  cases hends
  exact adds_of_steps hsteps

/-- Blocks that are laid out stand one behind the other. -/
theorem pairwise_stop_lt {kept : List Block} {pos : Nat} {text : List Char}
    (hlaid : LaidOut (kept.map Block.region) pos text) :
    kept.Pairwise fun a b => a.region.stop < b.offset := by
  induction kept generalizing pos text with
  | nil => exact .nil
  | cons b kept ih =>
    cases hlaid with
    | cons hgap hoffset hrest =>
      refine List.pairwise_cons.mpr ⟨?_, ih hrest⟩
      intro c hc
      exact hrest.offset_lt c.region (List.mem_map_of_mem hc)

/-- The blocks of a file are regions of it that stand apart. -/
theorem exists_laidOut {source : String} {blocks : Blocks} (h : split source = .ok blocks) :
    ∃ kept : List Block, LaidOut (kept.map Block.region) 0 source.toList ∧
      kept.Perm (blocks.scripts ++ blocks.template.toList) ∧ blocks.scripts.Sublist kept := by
  rw [Component.split] at h
  split at h
  · cases h
  · obtain ⟨kept, hlaid, template, scripts, htemplate, hscripts, -, hsub, hperm⟩ := exists_adds h
    rw [Option.none_or] at htemplate
    rw [List.nil_append] at hscripts
    rw [htemplate, hscripts]
    exact ⟨kept, hlaid, hperm, hsub⟩

end TextHarvest.Component
