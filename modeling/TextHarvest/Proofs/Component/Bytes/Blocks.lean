import TextHarvest.Proofs.Component.Bytes.Template
import TextHarvest.Proofs.Component.Layout

/-!
# Reading a component byte by byte

A file is split into blocks step by step, from one tag to the next. The steps over its bytes are
those over its characters, up to a tag that leads into a character.

Main results:

* `bytes_splitFrom_step` — what a step is in bytes.
* `bytes_splitFrom_of_comesToStumble`, `bytes_splitFrom_of_not_comesToStumble` — a whole run.
-/

namespace TextHarvest.Component

open Cursor (behind StopsAt)

/-! ## The end of a block -/

/-- The opening sign is of one byte. -/
theorem isAscii_lt : ∀ ch ∈ ['<'], IsAscii ch := isAscii_of_all (by decide)

/-- What opens a template is of one byte each. -/
theorem isAscii_of_mem_templateOpen : ∀ ch ∈ templateOpen, IsAscii ch :=
  isAscii_of_all (by decide)

/-- What closes a template is of one byte each. -/
theorem isAscii_of_mem_templateClose : ∀ ch ∈ templateClose, IsAscii ch :=
  isAscii_of_all (by decide)

/-- Bytes end a name just when their characters do. -/
theorem bytes_endsName (cs : List Char) : Bytes.endsName (Chars.bytes cs) = endsName cs := by
  cases cs with
  | nil => rfl
  | cons ch cs =>
    obtain ⟨b, bs, -, hb, hcons⟩ := exists_first_byte ch
    have hblind : Blind fun ch => ch == '>' || ch == '/' || isSpace ch :=
      ((blind_beq (by decide)).or (blind_beq (by decide))).or blind_isSpace
    rw [hcons]
    exact hblind.test_byte hb

/-- The bytes behind a mark of ASCII characters. -/
theorem drop_bytes_append {mark : List Char} (hmark : ∀ ch ∈ mark, IsAscii ch) (rest : List Char) :
    (Chars.bytes (mark ++ rest)).drop mark.length = Chars.bytes rest := by
  induction mark with
  | nil => rfl
  | cons ch mark ih =>
    obtain ⟨hch, hmark⟩ := List.forall_mem_cons.mp hmark
    obtain ⟨b, -, -, hcons⟩ := exists_bytes_cons hch
    rw [List.cons_append, hcons, List.length_cons, List.drop_succ_cons, ih hmark]

/-- A tag of a name stands at a cursor. -/
theorem bytes_sees_name {mark : List Char} (hmark : ∀ ch ∈ mark, IsAscii ch) (c : Cursor) :
    (c.bytes.sees mark && Bytes.endsName (c.bytes.rest.drop mark.length)) =
      (c.sees mark && endsName (c.rest.drop mark.length)) := by
  rw [Cursor.bytes_sees hmark]
  cases hsees : c.sees mark with
  | false => rfl
  | true =>
    obtain ⟨rest, hrest⟩ : mark <+: c.rest := List.isPrefixOf_iff_prefix.mp hsees
    have hdrop := drop_bytes_append hmark rest
    rw [hrest] at hdrop
    rw [show c.bytes.rest = Chars.bytes c.rest from rfl, hdrop, bytes_endsName, ← hrest,
      List.drop_left]

/-- Behind a comment a cursor is ahead of its first sign. -/
theorem ahead_next_afterComment {c : Cursor} (hsees : c.sees commentOpen = true) :
    c.next.Ahead (afterComment c) := by
  rw [afterComment]
  split
  · rename_i stop hseek
    have hskip : c.next.Ahead (c.skip 4) := c.next.ahead_skip 3
    exact hskip.trans ((Cursor.ahead_of_seek? (by decide) hseek).trans (stop.ahead_skip 3))
  · obtain ⟨cs, pos, prev⟩ := c
    cases cs with
    | nil => cases hsees
    | cons ch cs => exact (Cursor.mk (ch :: cs) pos prev).next.ahead_toEnd

/-- Behind a tag there is less left. -/
theorem length_lt_of_seek_lt {c start c' : Cursor} (hseek : c.seek? ['<'] = some start)
    (hahead : start.next.Ahead c') : c'.rest.length < c.rest.length := by
  obtain ⟨⟨more, hmore⟩, hstart⟩ := exists_of_seek_lt hseek
  have hle := hstart.length_le
  have hle' := hahead.length_le
  rw [hmore, List.length_cons] at hle
  have hnext : start.next.rest = more := by
    rw [Cursor.next, hmore]
  rw [hnext] at hle'
  omega

/-- The end of a template is found at the same place. -/
theorem bytes_templateEndFrom (depth : Nat) {c : Cursor} {fuel fuel' : Nat}
    (hfuel : c.rest.length < fuel) (hfuel' : c.rest.length < fuel') :
    Bytes.templateEndFrom fuel depth c.bytes =
      (templateEndFrom fuel' depth c).map Cursor.bytes := by
  induction fuel generalizing fuel' depth c with
  | zero => cases hfuel
  | succ fuel ih =>
    obtain ⟨fuel', rfl⟩ :=
      Nat.exists_eq_add_one_of_ne_zero (Nat.ne_of_gt (Nat.zero_lt_of_lt hfuel'))
    rw [Bytes.templateEndFrom, templateEndFrom, Cursor.bytes_seek? isAscii_lt (by decide)]
    cases hseek : c.seek? ['<'] with
    | none => rfl
    | some start =>
      -- every branch goes on ahead of the sign, so the fuel is enough for both readers
      have hgo : ∀ depth c', start.next.Ahead c' →
          Bytes.templateEndFrom fuel depth c'.bytes =
            (templateEndFrom fuel' depth c').map Cursor.bytes := by
        intro depth c' hahead
        have hlt := length_lt_of_seek_lt hseek hahead
        exact ih depth (by omega) (by omega)
      obtain ⟨⟨more, hmore⟩, -⟩ := exists_of_seek_lt hseek
      have hnext : start.bytes.next = start.next.bytes := bytes_next_of_rest (by decide) hmore
      have hclose := bytes_sees_name isAscii_of_mem_templateClose start
      have hopen := bytes_sees_name isAscii_of_mem_templateOpen start
      rw [show templateClose.length = 10 from rfl] at hclose
      rw [show templateOpen.length = 9 from rfl] at hopen
      have hself : (Bytes.tagEnd? start.bytes).any Bytes.isSelfClosing =
          (tagEnd? start).any isSelfClosing := by
        rw [bytes_tagEnd?]
        cases tagEnd? start with
        | none => rfl
        | some stop => exact bytes_isSelfClosing stop
      have hrefl := Cursor.Ahead.refl start.next
      simp only [Option.map_some, Cursor.bytes_sees isAscii_of_mem_commentOpen, hclose, hopen,
        hself, hnext]
      split
      · rename_i hsees
        rw [bytes_afterComment hsees]
        exact hgo depth _ (ahead_next_afterComment hsees)
      · split
        · split
          · rfl
          · exact hgo _ _ hrefl
        · split
          · split
            · exact hgo _ _ hrefl
            · exact hgo _ _ hrefl
          · exact hgo _ _ hrefl

/-- So is the end of any block. -/
theorem bytes_contentEnd? {name : List Char} (hname : ∀ ch ∈ name, IsAscii ch) (c : Cursor) :
    Bytes.contentEnd? (String.ofList name) c.bytes =
      (contentEnd? (String.ofList name) c).map Cursor.bytes := by
  rw [Bytes.contentEnd?, contentEnd?]
  split
  · exact bytes_templateEndFrom 1 (length_lt_bytes c) (Nat.lt_succ_self _)
  · refine Cursor.bytes_seek? ?_ (List.cons_ne_nil _ _) c
    rw [String.toList_ofList]
    exact List.forall_mem_cons.mpr ⟨by decide, List.forall_mem_cons.mpr ⟨by decide, hname⟩⟩

/-! ## The tags of a file -/

/-- The names of blocks are of one byte each. -/
theorem isAscii_of_isNameChar {ch : Char} (h : isNameChar ch = true) : IsAscii ch := by
  simp only [isNameChar, isAsciiLetter, Bool.or_eq_true, Bool.and_eq_true, decide_eq_true_eq,
    beq_iff_eq, Char.le_def, UInt32.le_iff_toNat_le] at h
  rw [IsAscii, Char.toNat]
  rcases h with ((⟨-, h⟩ | ⟨-, h⟩) | ⟨-, h⟩) | rfl
  · exact Nat.lt_of_le_of_lt h (by decide)
  · exact Nat.lt_of_le_of_lt h (by decide)
  · exact Nat.lt_of_le_of_lt h (by decide)
  · decide

/-- The test for names does not see longer characters. -/
theorem blind_isNameChar : Blind isNameChar := by
  refine ⟨false, fun ch hch => ?_⟩
  rw [Bool.eq_false_iff]
  exact fun hname => hch (isAscii_of_isNameChar hname)

/-- The end of a tag. -/
theorem exists_of_attributes {base : Nat} {c stop : Cursor}
    (h : (attributes base c).2 = some stop) : ∃ more, stop.rest = '>' :: more := by
  obtain ⟨cs, pos, prev⟩ := c
  obtain ⟨items, rest, rfl, hfit, hend⟩ := exists_items cs
  rw [attributes, readAttributes_items hend hfit pos prev [] (Nat.lt_succ_self _)] at h
  exact exists_of_tagStop? h

section Source

variable {source : String}

/-- The name of a tag is written in ASCII characters. -/
theorem NextTag.exists_name {c start nameEnd : Cursor} (h : NextTag c start nameEnd) :
    ∃ name, start.next.textTo nameEnd.pos = String.ofList name ∧ ∀ ch ∈ name, IsAscii ch := by
  rw [← h.ends]
  generalize start.next = c
  obtain ⟨cs, pos, prev⟩ := c
  obtain ⟨name, rest, rfl, hname, hrest⟩ := Cursor.exists_takeWhile isNameChar cs
  refine ⟨name, ?_, fun ch hch => isAscii_of_isNameChar (hname ch hch)⟩
  rw [Cursor.skipWhile_append name pos prev hname hrest, Cursor.textTo_append]

/-- Splitting comes to a tag and reads its name. -/
theorem bytes_splitFrom_name {c start nameEnd : Cursor} (hc : c.StandsIn source)
    (htag : NextTag c start nameEnd) :
    c.bytes.seek? ['<'] = some start.bytes ∧ start.bytes.sees commentOpen = false ∧
      start.bytes.next = start.next.bytes ∧
      start.next.bytes.skipWhile isNameChar = nameEnd.bytes ∧
      (nameEnd.bytes.pos == start.next.bytes.pos) = false ∧
      Bytes.textBetween source start.next.bytes nameEnd.bytes =
        some (start.next.textTo nameEnd.pos) := by
  obtain ⟨⟨more, hmore⟩, -⟩ := exists_of_seek_lt htag.seek
  refine ⟨?_, ?_, bytes_next_of_rest (by decide) hmore, ?_, beq_eq_false_iff_ne.mpr htag.named,
    bytes_textBetween (hc.ahead htag.ahead.1) htag.ahead.2⟩
  · rw [Cursor.bytes_seek? isAscii_lt (by decide), htag.seek, Option.map_some]
  · rw [Cursor.bytes_sees isAscii_of_mem_commentOpen, htag.comment]
  · rw [Cursor.bytes_skipWhile blind_isNameChar, htag.ends]

/-- A tag that leads into a character stops the splitting. -/
theorem bytes_splitFrom_stumbles {c start nameEnd : Cursor} (hc : c.StandsIn source)
    (htag : NextTag c start nameEnd) (h : Stumbles nameEnd.rest) (fuel : Nat) (blocks : Blocks) :
    Bytes.splitFrom source fuel c.bytes blocks = none := by
  cases fuel with
  | zero => rfl
  | succ fuel =>
    obtain ⟨hseek, hsees, hnext, hskip, hnamed, htext⟩ := bytes_splitFrom_name hc htag
    have hend := (hc.ahead htag.ahead.1).ahead htag.ahead.2
    have hread : Bytes.attributesFrom source 0 nameEnd.bytes = none :=
      bytes_readAttributes_of_stumbles 0 hend h [] (length_lt_bytes nameEnd)
    rw [Bytes.splitFrom, hseek]
    simp only [hsees, hnext, hskip, hnamed, htext, hread, Bool.false_eq_true, if_false]

/-- Splitting goes on behind any other tag. -/
theorem bytes_splitFrom_tag {c start nameEnd : Cursor} (hc : c.StandsIn source)
    (htag : NextTag c start nameEnd) (h : ¬Stumbles nameEnd.rest) (fuel : Nat) (blocks : Blocks) :
    Bytes.splitFrom source (fuel + 1) c.bytes blocks =
      match (attributes 0 nameEnd).2 with
      | none => some (.error (.unclosed (start.next.textTo nameEnd.pos) start.pos))
      | some stop =>
        if isSelfClosing stop then Bytes.splitFrom source fuel stop.next.bytes blocks
        else
          match contentEnd? (start.next.textTo nameEnd.pos) stop.next with
          | none => some (.error (.unclosed (start.next.textTo nameEnd.pos) start.pos))
          | some close =>
            match addBlock blocks (start.next.textTo nameEnd.pos)
                (blockBetween (attributes 0 nameEnd).1 stop.next close) with
            | .error e => some (.error e)
            | .ok more => Bytes.splitFrom source fuel (afterTag close).bytes more := by
  obtain ⟨hseek, hsees, hnext, hskip, hnamed, htext⟩ := bytes_splitFrom_name hc htag
  obtain ⟨name, hname, hascii⟩ := htag.exists_name
  have hstart := hc.ahead htag.ahead.1
  have hread := bytes_attributesFrom_of_not_stumbles 0 (hstart.ahead htag.ahead.2) h
  rw [Bytes.splitFrom, hseek]
  -- up to the attributes both readers agree; from there each branch is compared for itself
  simp only [hsees, hnext, hskip, hnamed, htext, hread, Bool.false_eq_true, if_false]
  cases hstop : (attributes 0 nameEnd).2 with
  | none => rfl
  | some stop =>
    obtain ⟨more, hmore⟩ := exists_of_attributes hstop
    have hafter : stop.bytes.next = stop.next.bytes := bytes_next_of_rest (by decide) hmore
    have hstands := hstart.ahead (htag.ahead_stop hstop)
    simp only [Option.map_some, bytes_isSelfClosing, hafter, hname, bytes_contentEnd? hascii]
    split
    · rfl
    · cases hclose : contentEnd? (String.ofList name) stop.next with
      | none => rfl
      | some close =>
        simp only [Option.map_some, bytes_textBetween hstands (ahead_of_contentEnd? hclose),
          bytes_afterTag]
        rfl

/-- Splitting goes on behind a comment, and behind a mark that opens no tag. -/
theorem bytes_splitFrom_comment {c start : Cursor} (hseek : c.seek? ['<'] = some start)
    (hsees : start.sees commentOpen = true) (fuel : Nat) (blocks : Blocks) :
    Bytes.splitFrom source (fuel + 1) c.bytes blocks =
      Bytes.splitFrom source fuel (afterComment start).bytes blocks := by
  rw [Bytes.splitFrom, Cursor.bytes_seek? isAscii_lt (by decide), hseek]
  simp only [Option.map_some, Cursor.bytes_sees isAscii_of_mem_commentOpen, hsees, if_true,
    bytes_afterComment hsees]

/-- A sign without a name behind it is passed over. -/
theorem bytes_splitFrom_nameless {c start : Cursor} (hseek : c.seek? ['<'] = some start)
    (hsees : start.sees commentOpen = false)
    (hname : (start.next.skipWhile isNameChar).pos = start.next.pos) (fuel : Nat)
    (blocks : Blocks) :
    Bytes.splitFrom source (fuel + 1) c.bytes blocks =
      Bytes.splitFrom source fuel start.next.bytes blocks := by
  obtain ⟨⟨more, hmore⟩, -⟩ := exists_of_seek_lt hseek
  have hnext : start.bytes.next = start.next.bytes := bytes_next_of_rest (by decide) hmore
  rw [Bytes.splitFrom, Cursor.bytes_seek? isAscii_lt (by decide), hseek]
  simp only [Option.map_some, Cursor.bytes_sees isAscii_of_mem_commentOpen, hsees, hnext,
    Cursor.bytes_skipWhile blind_isNameChar, Cursor.bytes_pos, hname, beq_self_eq_true, if_true,
    Bool.false_eq_true, if_false]

/-! ## Splitting a file -/

/-- Splitting a file from a place on comes to a tag that leads into a character. -/
def ComesToStumble (s : Cursor × Blocks) : Prop :=
  ∃ t start nameEnd, Relation.ReflTransGen SplitStep s t ∧ NextTag t.1 start nameEnd ∧
    Stumbles nameEnd.rest

/-- What stumbles later stumbles. -/
theorem ComesToStumble.of_step {s t : Cursor × Blocks} (hstep : SplitStep s t)
    (h : ComesToStumble t) : ComesToStumble s := by
  obtain ⟨u, start, nameEnd, hsteps, htag, hstumbles⟩ := h
  exact ⟨u, start, nameEnd, .head hstep hsteps, htag, hstumbles⟩

/-- A step leads on to where it says, or reading stops there. -/
theorem bytes_splitFrom_step {s t : Cursor × Blocks} (hstep : SplitStep s t)
    (hs : s.1.StandsIn source) (fuel : Nat) :
    Bytes.splitFrom source (fuel + 1) s.1.bytes s.2 = none ∨
      Bytes.splitFrom source (fuel + 1) s.1.bytes s.2 =
        Bytes.splitFrom source fuel t.1.bytes t.2 := by
  cases hstep with
  | comment hseek hsees => exact Or.inr (bytes_splitFrom_comment hseek hsees fuel _)
  | nameless hseek hsees hname => exact Or.inr (bytes_splitFrom_nameless hseek hsees hname fuel _)
  | @selfClosing c start nameEnd stop blocks htag hstop hself =>
    -- only a tag can make the reading by bytes stumble, and it does so before its end is looked for
    by_cases hstumbles : Stumbles nameEnd.rest
    · exact Or.inl (bytes_splitFrom_stumbles hs htag hstumbles _ _)
    · right
      rw [bytes_splitFrom_tag hs htag hstumbles, hstop]
      exact if_pos hself
  | @block c start nameEnd stop close blocks more htag hstop hself hclose hadd =>
    by_cases hstumbles : Stumbles nameEnd.rest
    · exact Or.inl (bytes_splitFrom_stumbles hs htag hstumbles _ _)
    · right
      rw [bytes_splitFrom_tag hs htag hstumbles, hstop]
      simp only [hself, Bool.false_eq_true, if_false, hclose, hadd]

/-- A splitting that comes to stumble has no answer. -/
theorem bytes_splitFrom_of_comesToStumble {s : Cursor × Blocks} (hs : s.1.StandsIn source)
    (h : ComesToStumble s) (fuel : Nat) : Bytes.splitFrom source fuel s.1.bytes s.2 = none := by
  obtain ⟨t, start, nameEnd, hsteps, htag, hstumbles⟩ := h
  induction hsteps using Relation.ReflTransGen.head_induction_on generalizing fuel with
  | refl => exact bytes_splitFrom_stumbles hs htag hstumbles fuel _
  | @head s u hstep _ ih =>
    cases fuel with
    | zero => rfl
    | succ fuel =>
      rcases bytes_splitFrom_step hstep hs fuel with hnone | hgo
      · exact hnone
      · rw [hgo]
        exact ih (hs.ahead hstep.ahead) fuel

/-- Any other has the answer of the reading by characters. -/
theorem bytes_splitFrom_of_not_comesToStumble {c : Cursor} {blocks : Blocks}
    (hc : c.StandsIn source) (h : ¬ComesToStumble (c, blocks)) {fuel fuel' : Nat}
    (hfuel : c.rest.length < fuel) (hfuel' : c.rest.length < fuel') :
    Bytes.splitFrom source fuel c.bytes blocks = some (splitFrom fuel' c blocks) := by
  induction fuel generalizing fuel' c blocks with
  | zero => cases hfuel
  | succ fuel ih =>
    obtain ⟨fuel', rfl⟩ :=
      Nat.exists_eq_add_one_of_ne_zero (Nat.ne_of_gt (Nat.zero_lt_of_lt hfuel'))
    -- whatever the step, it leads to a place with less in front of it
    have hgo : ∀ {start c' : Cursor} {more : Blocks}, c.seek? ['<'] = some start →
        start.next.Ahead c' → SplitStep (c, blocks) (c', more) →
        Bytes.splitFrom source fuel c'.bytes more = some (splitFrom fuel' c' more) := by
      intro start c' more hseek hahead hstep
      have hlt := length_lt_of_seek_lt hseek hahead
      have hstands : c'.StandsIn source := hc.ahead hstep.ahead
      exact ih hstands (fun hcomes => h (hcomes.of_step hstep)) (by omega) (by omega)
    rcases seek_lt_cases c with hseek | ⟨start, hseek, hsees | ⟨hsees, hname | htag⟩⟩
    · rw [Bytes.splitFrom, Cursor.bytes_seek? isAscii_lt (by decide), hseek, splitFrom, hseek]
      rfl
    · rw [bytes_splitFrom_comment hseek hsees,
        hgo hseek (ahead_next_afterComment hsees) (.comment hseek hsees), splitFrom, hseek]
      simp only [hsees, if_true]
    · rw [bytes_splitFrom_nameless hseek hsees hname,
        hgo hseek (Cursor.Ahead.refl _) (.nameless hseek hsees hname), splitFrom, hseek]
      simp only [hsees, hname, beq_self_eq_true, Bool.false_eq_true, if_true, if_false]
    · have hstumbles : ¬Stumbles (start.next.skipWhile isNameChar).rest :=
        fun hs => h ⟨(c, blocks), start, _, .refl, htag, hs⟩
      have hnamed : ((start.next.skipWhile isNameChar).pos == start.next.pos) = false :=
        beq_eq_false_iff_ne.mpr htag.named
      rw [bytes_splitFrom_tag hc htag hstumbles, splitFrom, hseek]
      simp only [hsees, hnamed, Bool.false_eq_true, if_false]
      cases hstop : (attributes 0 (start.next.skipWhile isNameChar)).2 with
      | none => rfl
      | some stop =>
        dsimp only
        cases hself : isSelfClosing stop with
        | true => exact hgo hseek (htag.ahead_stop hstop) (.selfClosing htag hstop hself)
        | false =>
          simp only [Bool.false_eq_true, if_false]
          cases hclose : contentEnd?
              (start.next.textTo (start.next.skipWhile isNameChar).pos) stop.next with
          | none => rfl
          | some close =>
            dsimp only
            cases hadd : addBlock blocks
                (start.next.textTo (start.next.skipWhile isNameChar).pos)
                (blockBetween (attributes 0 (start.next.skipWhile isNameChar)).1 stop.next
                  close) with
            | error e =>
              rw [blockBetween] at hadd
              simp only [hadd]
            | ok more =>
              have hstep := SplitStep.block htag hstop hself hclose hadd
              have hahead := (htag.ahead_stop hstop).trans
                ((ahead_of_contentEnd? hclose).trans (ahead_afterTag close))
              rw [blockBetween] at hadd
              simp only [hadd]
              exact hgo hseek hahead hstep

end Source

end TextHarvest.Component
