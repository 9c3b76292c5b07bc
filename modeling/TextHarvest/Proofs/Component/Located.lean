import TextHarvest.Proofs.Component.WholeCharacters
import TextHarvest.Proofs.Except

/-!
# The blocks of a component are where they say

Splitting a file cuts its blocks out of it: each stands right behind the end of a tag and right in
front of the closing tag of its kind. The end of a script is the first mark that closes one. The
end of a template is found by counting: the templates that are opened in its content are closed
there again, and none is closed before it is opened.

* `Nested`, `nested_templateTags` — what counting the tags of templates comes to.
* `Blocks.CutFrom` — what every step keeps: the blocks so far were cut out of the file.

Main result: `split_located`.
-/

namespace TextHarvest.Component

open Cursor (behind StopsAt)

/-! ## The tags of templates -/

/-- The tags of templates from a cursor on that start before an offset and in no comment. -/
def templateTagsFrom (stop : Nat) : Nat → Cursor → List TemplateTag
  | 0, _ => []
  | fuel + 1, c =>
    if stop ≤ c.pos then []
    else if c.sees commentOpen then templateTagsFrom stop fuel (afterComment c)
    else (templateTag? c).toList ++ templateTagsFrom stop fuel c.next

/-- The tags of templates that start between two offsets of a source and in no comment. -/
def templateTags (source : String) (start stop : Nat) : List TemplateTag :=
  templateTagsFrom stop (source.length + 1) (Cursor.ofOffset source start)

/-- The tags up to an earlier place are the first of those up to a later one. -/
theorem templateTagsFrom_of_le {stop stop' : Nat} (hle : stop' ≤ stop) (fuel : Nat) (c : Cursor) :
    templateTagsFrom stop' fuel c <+: templateTagsFrom stop fuel c := by
  induction fuel generalizing c with
  | zero => exact List.prefix_rfl
  | succ fuel ih =>
    rw [templateTagsFrom, templateTagsFrom]
    by_cases hpos : stop' ≤ c.pos
    · rw [if_pos hpos]
      exact List.nil_prefix
    · rw [if_neg hpos, if_neg (show ¬stop ≤ c.pos by omega)]
      split
      · exact ih _
      · exact (List.prefix_append_right_inj _).mpr (ih _)

/-- A mark is seen only where a tag opens. -/
theorem sees_eq_false {ch : Char} (hch : ch ≠ '<') (mark cs : List Char) (pos : Nat)
    (prev : Option Char) : (Cursor.mk (ch :: cs) pos prev).sees ('<' :: mark) = false := by
  have hne : ('<' == ch) = false := beq_eq_false_iff_ne.mpr (Ne.symm hch)
  rw [Cursor.sees, List.isPrefixOf, hne, Bool.false_and]

/-- No tag starts with another character. -/
theorem templateTag?_eq_none {ch : Char} (hch : ch ≠ '<') (cs : List Char) (pos : Nat)
    (prev : Option Char) : templateTag? ⟨ch :: cs, pos, prev⟩ = none := by
  have hclose := sees_eq_false hch "/template".toList cs pos prev
  have hopen := sees_eq_false hch "template".toList cs pos prev
  rw [templateTag?, show templateClose = '<' :: "/template".toList from rfl, hclose,
    show templateOpen = '<' :: "template".toList from rfl, hopen]
  rfl

/-- Up to the next mark of a tag there is none. -/
theorem templateTagsFrom_seek {c start : Cursor} (hseek : c.seek? ['<'] = some start)
    {stop : Nat} (hstop : start.pos ≤ stop) {n : Nat} (hn : c.rest.length < n) :
    ∃ m, start.rest.length ≤ m ∧
      templateTagsFrom stop n c = templateTagsFrom stop (m + 1) start := by
  obtain ⟨body, rest, hrest, hfirst, rfl⟩ := Cursor.exists_seek? (by decide) hseek
  obtain ⟨cs, pos, prev⟩ := c
  dsimp only at hrest hstop hn ⊢
  subst hrest
  clear hseek
  -- the induction is on the text up to the mark: no character of it starts a tag
  induction body generalizing pos prev n with
  | nil =>
    obtain ⟨n, rfl⟩ := Nat.exists_eq_add_one_of_ne_zero (Nat.ne_of_gt (Nat.zero_lt_of_lt hn))
    exact ⟨n, Nat.le_of_lt_succ hn, rfl⟩
  | cons ch body ih =>
    obtain ⟨n, rfl⟩ := Nat.exists_eq_add_one_of_ne_zero (Nat.ne_of_gt (Nat.zero_lt_of_lt hn))
    rw [List.cons_append, List.infix_cons_iff, not_or] at hfirst
    have hch : ch ≠ '<' := by
      rintro rfl
      exact hfirst.1 (List.cons_prefix_cons.mpr ⟨rfl, List.nil_prefix⟩)
    have hpos := ch.utf8Size_pos
    rw [Chars.size_cons, ← Nat.add_assoc] at hstop
    have hcomment := sees_eq_false hch "!--".toList (body ++ (['<'] ++ rest)) pos prev
    obtain ⟨m, hm, htags⟩ := ih hfirst.2 (pos + ch.utf8Size) (some ch) hstop
      (Nat.lt_of_succ_lt_succ hn)
    refine ⟨m, hm, ?_⟩
    rw [List.cons_append, templateTagsFrom, if_neg (by dsimp only; omega),
      show commentOpen = '<' :: "!--".toList from rfl, hcomment, if_neg Bool.false_ne_true,
      templateTag?_eq_none hch, Cursor.next_mk, htags, Cursor.behind_cons, Chars.size_cons,
      Nat.add_assoc pos]
    rfl

/-! ## Counting -/

/-- Tags of templates inside of `depth` open ones that close all of these but the outermost, which
stays open all along. -/
structure Nested (depth : Nat) (tags : List TemplateTag) : Prop where
  total : tags.count .opening + depth = tags.count .closing + 1
  inside : ∀ front, front <+: tags → front.count .closing < front.count .opening + depth

theorem nested_nil : Nested 1 [] := by
  refine ⟨rfl, fun front hfront => ?_⟩
  rw [List.prefix_nil.mp hfront]
  exact Nat.one_pos

theorem Nested.closing {depth : Nat} {tags : List TemplateTag} (h : Nested depth tags) :
    Nested (depth + 1) (.closing :: tags) := by
  have htotal := h.total
  refine ⟨by simp; omega, fun front hfront => ?_⟩
  rcases List.prefix_cons_iff.mp hfront with rfl | ⟨front, rfl, hmore⟩
  · simp
  · -- one level less is open behind the closing tag
    have hinside := h.inside front hmore
    simp
    omega

theorem Nested.opening {depth : Nat} {tags : List TemplateTag} (hdepth : 0 < depth)
    (h : Nested (depth + 1) tags) : Nested depth (.opening :: tags) := by
  have htotal := h.total
  refine ⟨by simp; omega, fun front hfront => ?_⟩
  rcases List.prefix_cons_iff.mp hfront with rfl | ⟨front, rfl, hmore⟩
  · simpa using hdepth
  · -- one level more is open behind the opening tag
    have hinside := h.inside front hmore
    simp
    omega

/-- The closing tag that is found for a template closes all that was opened before. -/
theorem nested_templateTags {fuel depth : Nat} {c close : Cursor}
    (h : templateEndFrom fuel depth c = some close) (hdepth : 0 < depth) {n : Nat}
    (hn : c.rest.length < n) : Nested depth (templateTagsFrom close.pos n c) := by
  induction fuel generalizing depth c n with
  | zero => cases h
  | succ fuel ih =>
    obtain ⟨start, hseek, hsearch⟩ := exists_endSearch h
    obtain ⟨⟨more, hmore⟩, -⟩ := exists_of_seek_lt hseek
    have hnext : start.next = ⟨more, start.pos + 1, some '<'⟩ := by
      rw [Cursor.next, hmore]
      rfl
    -- wherever the search goes on, there is less left, and the closing tag stands there
    have hlater {depth' : Nat} {c' : Cursor} (hahead : start.next.Ahead c')
        (hend : templateEndFrom fuel depth' c' = some close) :
        start.pos < close.pos ∧ c'.rest.length < start.rest.length := by
      have hle := (hahead.trans (ahead_of_templateEndFrom hend)).pos_le
      have hlen := hahead.length_le
      rw [hnext] at hle hlen
      rw [hmore]
      exact ⟨hle, Nat.lt_succ_of_le hlen⟩
    -- and where it is no comment, a tag of a template counts
    have hgo {depth' : Nat} (hdepth' : 0 < depth') (hsees : ¬start.sees commentOpen = true)
        (hend : templateEndFrom fuel depth' start.next = some close) :
        ∃ tags, Nested depth' tags ∧
          templateTagsFrom close.pos n c = (templateTag? start).toList ++ tags := by
      obtain ⟨hlt, hlen⟩ := hlater (Cursor.Ahead.refl _) hend
      obtain ⟨m, hm, htags⟩ := templateTagsFrom_seek hseek (Nat.le_of_lt hlt) hn
      refine ⟨_, ih hend hdepth' (Nat.lt_of_lt_of_le hlen hm), ?_⟩
      rw [htags, templateTagsFrom, if_neg (Nat.not_le.mpr hlt), if_neg hsees]
    cases hsearch with
    | comment hsees hmore =>
      obtain ⟨hlt, hlen⟩ := hlater (ahead_next_afterComment hsees) hmore
      obtain ⟨m, hm, htags⟩ := templateTagsFrom_seek hseek (Nat.le_of_lt hlt) hn
      rw [htags, templateTagsFrom, if_neg (Nat.not_le.mpr hlt), if_pos hsees]
      exact ih hmore hdepth (Nat.lt_of_lt_of_le hlen hm)
    | found hsees htag hone =>
      obtain rfl : depth = 1 := Nat.le_antisymm hone hdepth
      obtain ⟨m, -, htags⟩ := templateTagsFrom_seek hseek (Nat.le_refl _) hn
      rw [htags, templateTagsFrom, if_pos (Nat.le_refl _)]
      exact nested_nil
    | closing hsees htag hmany hmore =>
      obtain ⟨tags, hnested, htags⟩ := hgo (Nat.sub_pos_of_lt hmany) hsees hmore
      have hback : depth - 1 + 1 = depth := Nat.sub_add_cancel hdepth
      rw [htags, htag]
      exact hback ▸ hnested.closing
    | opening hsees htag hmore =>
      obtain ⟨tags, hnested, htags⟩ := hgo (Nat.succ_pos depth) hsees hmore
      rw [htags, htag]
      exact hnested.opening hdepth
    | other hsees htag hmore =>
      obtain ⟨tags, hnested, htags⟩ := hgo hdepth hsees hmore
      rw [htags, htag]
      exact hnested

/-- What is found at the end of a template is a closing tag. -/
theorem sees_of_templateEndFrom {fuel depth : Nat} {c close : Cursor}
    (h : templateEndFrom fuel depth c = some close) : close.sees templateClose = true := by
  induction fuel generalizing depth c with
  | zero => cases h
  | succ fuel ih =>
    obtain ⟨start, -, hsearch⟩ := exists_endSearch h
    cases hsearch with
    | comment hsees hmore => exact ih hmore
    | found hsees htag => exact sees_of_templateTag? htag
    | closing hsees htag hmany hmore => exact ih hmore
    | opening hsees htag hmore => exact ih hmore
    | other hsees htag hmore => exact ih hmore

/-! ## Blocks that are cut out of a file -/

/-- The content of a block is what stands between the end of a tag and the end that was found for a
tag of its name. -/
def Block.CutFrom (source name : String) (b : Block) : Prop :=
  ∃ front more close, source.toList = front ++ '>' :: more ∧
    let after : Cursor := ⟨more, Chars.size front + 1, some '>'⟩
    contentEnd? name after = some close ∧ b.offset = after.pos ∧ b.content = after.textTo close.pos

/-- Every block was cut out of a file. -/
structure Blocks.CutFrom (source : String) (blocks : Blocks) : Prop where
  template : ∀ b ∈ blocks.template, b.CutFrom source "template"
  scripts : ∀ b ∈ blocks.scripts, b.CutFrom source "script"
  few : blocks.scripts.length ≤ maxScripts

variable {source : String}

/-- A block is cut out of the source between its tags. -/
theorem cutFrom_blockBetween {name : String} (attrs : List Attribute) {stop close : Cursor}
    (hstop : stop.StandsIn source) (hmark : ∃ more, stop.rest = '>' :: more)
    (hclose : contentEnd? name stop.next = some close) :
    (blockBetween attrs stop.next close).CutFrom source name := by
  obtain ⟨front, hsource, hpos⟩ := hstop
  obtain ⟨more, hmore⟩ := hmark
  dsimp only at hsource hpos
  rw [Nat.zero_add] at hpos
  have hnext : stop.next = ⟨more, Chars.size front + 1, some '>'⟩ := by
    rw [Cursor.next, hmore, hpos]
    rfl
  rw [hnext] at hclose ⊢
  exact ⟨front, more, close, hmore ▸ hsource, hclose, rfl, rfl⟩

/-- A step keeps it: the block that it adds was cut out of the file as well. -/
theorem SplitStep.cutFrom {s t : Cursor × Blocks} (hstep : SplitStep s t)
    (hs : s.1.StandsIn source) (h : s.2.CutFrom source) : t.2.CutFrom source := by
  cases hstep with
  | comment => exact h
  | nameless => exact h
  | selfClosing => exact h
  | @block c start nameEnd stop close blocks more htag hstop hself hclose hadd =>
    have hstands : stop.StandsIn source := (hs.ahead htag.ahead.1).ahead
      (htag.ahead.2.trans (ahead_of_attributes (Prod.ext rfl hstop)))
    have hcut := cutFrom_blockBetween (attributes 0 nameEnd).1 hstands
      (exists_of_attributes hstop) hclose
    rcases addBlock_cases hadd with rfl | ⟨hname, -, rfl⟩ | ⟨hname, hcount, rfl⟩
    · exact h
    · -- the template
      rw [hname] at hcut
      refine ⟨?_, h.scripts, h.few⟩
      intro b hb
      obtain rfl := Option.some.inj hb
      exact hcut
    · -- one more script
      rw [hname] at hcut
      refine ⟨h.template, ?_, ?_⟩
      · intro b hb
        rcases List.mem_append.mp hb with hb | hb
        · exact h.scripts b hb
        · rw [List.mem_singleton.mp hb]
          exact hcut
      · rw [List.length_append, List.length_singleton]
        exact hcount

/-- So does a run of steps. -/
theorem cutFrom_of_steps {s t : Cursor × Blocks} (hsteps : Relation.ReflTransGen SplitStep s t)
    (hs : s.1.StandsIn source) (h : s.2.CutFrom source) :
    t.1.StandsIn source ∧ t.2.CutFrom source := by
  induction hsteps with
  | refl => exact ⟨hs, h⟩
  | tail _ hstep ih =>
    obtain ⟨hstands, hcut⟩ := ih
    exact ⟨hstands.ahead hstep.ahead, hstep.cutFrom hstands hcut⟩

/-! ## Where the blocks stand -/

/-- What opens the closing tag of a script. -/
def scriptClose : List Char := "</script".toList

/-- The range of the content of a block. -/
def Block.span (b : Block) : Span :=
  ⟨b.offset, b.region.stop⟩

/-- The content of a block stands at its offset, right behind a `>` and right in front of `mark`. -/
def Block.StandsBefore (b : Block) (source : String) (mark : List Char) : Prop :=
  ∃ front back, source.toList = front ++ '>' :: (b.content.toList ++ (mark ++ back)) ∧
    b.offset = Chars.size front + 1

/-- As many templates are closed in the content of a block as are opened there, and up to no place
in it more are closed than opened. -/
structure Block.Balanced (b : Block) (source : String) : Prop where
  whole : (templateTags source b.offset b.span.stop).count .opening =
    (templateTags source b.offset b.span.stop).count .closing
  front : ∀ stop ≤ b.span.stop, (templateTags source b.offset stop).count .closing ≤
    (templateTags source b.offset stop).count .opening

/-- The blocks of a file stand where they say. -/
structure BlocksLocated (source : String) (blocks : Blocks) : Prop where
  template : ∀ b ∈ blocks.template, b.StandsBefore source templateClose
  scripts : ∀ b ∈ blocks.scripts, b.StandsBefore source scriptClose
  apart : (blocks.template.toList ++ blocks.scripts).Pairwise fun a b => a.span.Apart b.span
  ordered : blocks.scripts.Pairwise fun a b => a.span.stop ≤ b.span.start
  few : blocks.scripts.length ≤ 2
  ends : ∀ b ∈ blocks.scripts, ¬scriptClose <:+: b.content.toList
  balanced : ∀ b ∈ blocks.template, b.Balanced source

/-- Splitting a file answers where its blocks stand, or where a tag stands that has no end. -/
structure SplitLocated (source : String) : Prop where
  blocks : ∀ blocks, Bytes.split source = some (.ok blocks) → BlocksLocated source blocks
  unclosed : ∀ tag position, Bytes.split source = some (.error (.unclosed tag position)) →
    ∃ front back, source.toList = front ++ '<' :: (tag.toList ++ back) ∧
      position = Chars.size front

/-- The content of a script stands in front of the first mark that closes one. -/
theorem Block.CutFrom.script {b : Block} (h : b.CutFrom source "script") :
    b.StandsBefore source scriptClose ∧ ¬scriptClose <:+: b.content.toList := by
  obtain ⟨front, more, close, hsource, hclose, hoffset, hcontent⟩ := h
  have hseek : (Cursor.mk more (Chars.size front + 1) (some '>')).seek? scriptClose = some close :=
    hclose
  obtain ⟨body, rest, rfl, hfirst, rfl⟩ := Cursor.exists_seek? (by decide) hseek
  have hbody : b.content.toList = body := by
    rw [hcontent, Cursor.textTo_append, String.toList_ofList]
  rw [Block.StandsBefore, hbody]
  refine ⟨⟨front, rest, hsource, hoffset⟩, fun hinfix => hfirst ?_⟩
  exact hinfix.trans (List.prefix_append _ _).isInfix

/-- The content of a template stands in front of the closing tag that closes it. -/
theorem Block.CutFrom.template {b : Block} (h : b.CutFrom source "template") :
    b.StandsBefore source templateClose ∧ b.Balanced source := by
  obtain ⟨front, more, close, hsource, hclose, hoffset, hcontent⟩ := h
  have hend : templateEndFrom (more.length + 1) 1 ⟨more, Chars.size front + 1, some '>'⟩ =
      some close := hclose
  obtain ⟨content, hmore, hpos, htext⟩ := (ahead_of_templateEndFrom hend).exists_textTo
  obtain ⟨back, hback⟩ : templateClose <+: close.rest :=
    List.isPrefixOf_iff_prefix.mp (sees_of_templateEndFrom hend)
  dsimp only at hoffset hmore hpos
  have hchars : b.content.toList = content := by
    rw [hcontent]
    exact (congrArg String.toList htext).trans String.toList_ofList
  have hstop : b.span.stop = close.pos := by
    rw [Block.span, Region.stop, hpos]
    show b.offset + Chars.size b.content.toList = _
    rw [hchars, hoffset]
  -- counting from the offset of the block starts where its end was looked for
  have hcursor : Cursor.ofOffset source b.offset = ⟨more, Chars.size front + 1, some '>'⟩ := by
    have hadvance := advanceTo_append (front ++ ['>']) more 0 none
    rw [List.append_assoc, List.singleton_append, ← hsource, Nat.zero_add, Chars.size_append,
      Cursor.behind_append] at hadvance
    rw [hoffset]
    exact hadvance
  refine ⟨⟨front, back, ?_, hoffset⟩, ?_⟩
  · rw [hsource, hmore, hchars, hback]
  · have hlen : more.length < source.length + 1 := by
      rw [← String.length_toList, hsource, List.length_append, List.length_cons]
      omega
    have hnested := nested_templateTags hend Nat.one_pos hlen
    rw [← hstop, ← hcursor] at hnested
    refine ⟨Nat.succ_inj.mp hnested.total, fun stop hle => ?_⟩
    exact Nat.le_of_lt_succ (hnested.inside _ (templateTagsFrom_of_le hle _ _))

/-- Splitting a file that is not too large is a run of steps from its start, and an end. -/
theorem exists_steps_of_split {r : Except BlockError Blocks} (h : Bytes.split source = some r)
    (hsize : ∀ size, r ≠ .error (.tooLarge size)) :
    split source = r ∧ ∃ t : Cursor × Blocks, t.1.StandsIn source ∧ t.2.CutFrom source ∧
      SplitEnds t r := by
  -- an answer means that the reading by bytes did not stumble, so it is the one by characters
  have hstumbles : ¬FileStumbles source := by
    intro hstumbles
    rw [(bytes_split source).1 hstumbles] at h
    cases h
  rw [(bytes_split source).2 hstumbles, Option.some.injEq] at h
  refine ⟨h, ?_⟩
  rw [split] at h
  split at h
  · exact absurd h.symm (hsize _)
  · obtain ⟨t, hsteps, hends⟩ := exists_splitSteps (source.length + 1) ⟨source.toList, 0, none⟩ {}
    have hnone : Blocks.CutFrom source {} := ⟨by simp, by simp, Nat.zero_le _⟩
    obtain ⟨hstands, hcut⟩ := cutFrom_of_steps hsteps (standsIn_ofText source) hnone
    exact ⟨t, hstands, hcut, h ▸ hends⟩

/-- The blocks of a file stand apart, and its scripts one behind the other. -/
theorem apart_of_split {blocks : Blocks} (h : split source = .ok blocks) :
    (blocks.template.toList ++ blocks.scripts).Pairwise (fun a b => a.span.Apart b.span) ∧
      blocks.scripts.Pairwise fun a b => a.span.stop ≤ b.span.start := by
  obtain ⟨kept, hlaid, hperm, hsub⟩ := exists_laidOut h
  have hbehind := pairwise_stop_lt hlaid
  constructor
  · -- the order of the blocks in the file is lost in the answer, that they are apart is not
    have hkept : kept.Pairwise fun a b => a.span.Apart b.span :=
      hbehind.imp fun hlt => Or.inl (Nat.le_of_lt hlt)
    exact ((hperm.trans List.perm_append_comm).pairwise_iff Span.Apart.symm).mp hkept
  · exact (hbehind.sublist hsub).imp Nat.le_of_lt

/-- The blocks of a component stand where they say: behind the end of a tag and in front of the
closing tag of their kind, apart from each other, and a template closes what it opens. -/
theorem split_located (source : String) : SplitLocated source := by
  constructor
  case blocks =>
    intro blocks h
    obtain ⟨hsplit, t, -, hcut, hends⟩ := exists_steps_of_split h (by simp)
    cases hends
    obtain ⟨hapart, hordered⟩ := apart_of_split hsplit
    exact
      { template := fun b hb => (hcut.template b hb).template.1
        scripts := fun b hb => (hcut.scripts b hb).script.1
        apart := hapart
        ordered := hordered
        few := hcut.few
        ends := fun b hb => (hcut.scripts b hb).script.2
        balanced := fun b hb => (hcut.template b hb).template.2 }
  case unclosed =>
    intro tag position h
    obtain ⟨-, t, hstands, -, hends⟩ := exists_steps_of_split h (by simp)
    -- the error is that of the last tag that was found
    generalize hr : (Except.error (.unclosed tag position) : Except BlockError Blocks) = r at hends
    cases hends with
    | ok => cases hr
    | tooMany => cases hr
    | @unclosed start nameEnd htag =>
      obtain ⟨rfl, rfl⟩ := BlockError.unclosed.inj (Except.error.inj hr)
      obtain ⟨⟨more, hmore⟩, hstart⟩ := exists_of_seek_lt htag.seek
      obtain ⟨front, hsource, hpos⟩ := hstands.ahead hstart
      obtain ⟨name, hname, -, htext⟩ := htag.ahead.2.exists_textTo
      have hnext : start.next.rest = more := by
        rw [Cursor.next, hmore]
      refine ⟨front, nameEnd.rest, ?_, by simpa using hpos⟩
      rw [htext, String.toList_ofList, ← hname, hnext, ← hmore]
      exact hsource

/-- A template in a template, a template that closes itself, and a comment with a closing tag. -/
theorem split_located_nested :
    let source := "<template><!--</template>--><template/><template>a</template></template>" ++
      "<script>b</script>"
    let blocks : Blocks :=
      { template := some ⟨"<!--</template>--><template/><template>a</template>", 10, none, false⟩
        scripts := [⟨"b", 80, none, false⟩] }
    Bytes.split source = some (.ok blocks) ∧ BlocksLocated source blocks := by
  intro source blocks
  have hread : (Bytes.split source).bind Except.toOption = some blocks := by decide +kernel
  obtain ⟨r, hsplit, hr⟩ := Option.bind_eq_some_iff.mp hread
  rw [eq_ok_of_toOption hr] at hsplit
  exact ⟨hsplit, (split_located source).blocks blocks hsplit⟩

end TextHarvest.Component
