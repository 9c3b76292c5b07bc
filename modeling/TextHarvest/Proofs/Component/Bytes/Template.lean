import TextHarvest.Proofs.Component.Bytes.Tag

/-!
# Reading a template byte by byte

The pieces of a template are read byte by byte as they are character by character, as long as no
start tag leads into a character.

Main results:

* `bytes_readRun` — runs of text are always read in whole characters.
* `bytes_nodesFrom_piece`, `bytes_nodesFrom_pieces` — one piece, and all of them.
-/

namespace TextHarvest.Component

open Cursor (behind StopsAt)

/-- A start tag that holds a value without a name in front of a character of several bytes. -/
def Piece.cuts : Piece → Bool
  | .tag _ items _ _ => items.any Item.cuts
  | _ => false

/-! ## Comments and tags that are passed over -/

/-- What opens a comment is of one byte each. -/
theorem isAscii_of_mem_commentOpen : ∀ ch ∈ commentOpen, IsAscii ch :=
  isAscii_of_all (by decide)

/-- What closes a comment is of one byte each. -/
theorem isAscii_of_mem_commentClose : ∀ ch ∈ commentClose, IsAscii ch :=
  isAscii_of_all (by decide)

/-- Opening braces are of one byte each. -/
theorem isAscii_of_mem_bracesOpen : ∀ ch ∈ ['\x7b', '\x7b'], IsAscii ch :=
  isAscii_of_all (by decide)

/-- Closing braces are of one byte each. -/
theorem isAscii_of_mem_bracesClose : ∀ ch ∈ ['\x7d', '\x7d'], IsAscii ch :=
  isAscii_of_all (by decide)

/-- Moving over a mark of ASCII characters. -/
theorem bytes_skip_of_rest {mark rest : List Char} {c : Cursor} (hmark : ∀ ch ∈ mark, IsAscii ch)
    (hrest : c.rest = mark ++ rest) : c.bytes.skip mark.length = (c.skip mark.length).bytes := by
  obtain ⟨cs, pos, prev⟩ := c
  dsimp only at hrest
  subst hrest
  exact Cursor.bytes_skip hmark rest pos prev

/-- A comment ends at the same place, byte by byte. -/
theorem bytes_afterComment {c : Cursor} (hsees : c.sees commentOpen = true) :
    Bytes.afterComment c.bytes = (afterComment c).bytes := by
  obtain ⟨rest, hrest⟩ : commentOpen <+: c.rest := List.isPrefixOf_iff_prefix.mp hsees
  have hopen : c.bytes.skip 4 = (c.skip 4).bytes :=
    bytes_skip_of_rest isAscii_of_mem_commentOpen hrest.symm
  rw [Bytes.afterComment, afterComment, hopen,
    Cursor.bytes_seek? isAscii_of_mem_commentClose (by decide)]
  cases hseek : (c.skip 4).seek? commentClose with
  | none => exact Cursor.bytes_toEnd c
  | some stop =>
    obtain ⟨body, rest, -, -, rfl⟩ := Cursor.exists_seek? (by decide) hseek
    exact bytes_skip_of_rest isAscii_of_mem_commentClose rfl

/-- A tag ends at its mark. -/
theorem exists_of_tagEnd? {c stop : Cursor} (h : tagEnd? c = some stop) :
    ∃ rest, stop.rest = '>' :: rest := by
  obtain ⟨cs, pos, prev⟩ := c
  rcases exists_closesTag cs none with hopen | ⟨a, b, rfl, hclosed⟩
  · rw [tagEnd?, tagEndFrom_eq_none hopen] at h
    cases h
  · obtain ⟨pos', prev', heq, -⟩ := tagEndFrom_append hclosed b pos prev
    rw [tagEnd?, heq] at h
    obtain rfl := Option.some.inj h
    exact ⟨b, rfl⟩

/-- One byte further is one character further where that has one byte. -/
theorem bytes_next_of_rest {ch : Char} {rest : List Char} {c : Cursor} (hch : IsAscii ch)
    (hrest : c.rest = ch :: rest) : c.bytes.next = c.next.bytes := by
  refine Cursor.bytes_next fun d hd => ?_
  rw [Cursor.head?, hrest, List.head?_cons] at hd
  exact (Option.some.inj hd) ▸ hch

/-- A tag that is passed over ends at the same place. -/
theorem bytes_afterTag (c : Cursor) : Bytes.afterTag c.bytes = (afterTag c).bytes := by
  rw [Bytes.afterTag, afterTag, bytes_tagEnd?]
  cases hend : tagEnd? c with
  | none => exact Cursor.bytes_toEnd c
  | some stop =>
    obtain ⟨rest, hrest⟩ := exists_of_tagEnd? hend
    exact bytes_next_of_rest (by decide) hrest

/-! ## Runs of text -/

/-- No byte of a longer character is a letter. -/
theorem blind_isAsciiLetter : Blind isAsciiLetter := by
  refine ⟨false, fun ch hch => ?_⟩
  rw [Bool.eq_false_iff]
  intro hletter
  apply hch
  simp only [isAsciiLetter, Bool.or_eq_true, Bool.and_eq_true, decide_eq_true_eq,
    Char.le_def, UInt32.le_iff_toNat_le] at hletter
  rw [IsAscii, Char.toNat]
  rcases hletter with ⟨-, h⟩ | ⟨-, h⟩
  · exact Nat.lt_of_le_of_lt h (by decide)
  · exact Nat.lt_of_le_of_lt h (by decide)

/-- Nor one of the signs that open what is passed over. -/
theorem blind_opensPassed : Blind opensPassed :=
  ((blind_beq (by decide)).or (blind_beq (by decide))).or (blind_beq (by decide))

/-- What stands behind the mark of a tag. -/
def followsMark (ch : Char) : Bool :=
  isAsciiLetter ch || ch == '/' || ch == '!' || ch == '?'

/-- Nor anything else that may follow the opening sign. -/
theorem blind_followsMark : Blind followsMark :=
  ((blind_isAsciiLetter.or (blind_beq (by decide))).or (blind_beq (by decide))).or
    (blind_beq (by decide))

/-- What opens a tag depends on two characters. -/
theorem opensTag_cons_cons (ch d : Char) (cs : List Char) :
    opensTag (ch :: d :: cs) = (ch == '<' && followsMark d) := by
  by_cases hch : ch = '<'
  · subst hch
    rfl
  · rw [beq_eq_false_iff_ne.mpr hch, Bool.false_and, opensTag]
    intro d' cs' heq
    exact hch (List.cons.inj heq).1

/-- Bytes open a tag just when their characters do. -/
theorem bytes_opensTag (cs : List Char) : Bytes.opensTag (Chars.bytes cs) = opensTag cs := by
  -- on bytes the test is the same, but for a second byte instead of a second character
  have hbytes : ∀ (b d : UInt8) (bs : List UInt8), Bytes.opensTag (b :: d :: bs) =
      (charOfByte b == '<' && followsMark (charOfByte d)) := fun _ _ _ => rfl
  cases cs with
  | nil => rfl
  | cons ch cs =>
    by_cases hch : IsAscii ch
    · obtain ⟨b, hchar, -, hcons⟩ := exists_bytes_cons hch
      rw [hcons]
      cases cs with
      | nil =>
        rw [opensTag]
        · rfl
        · intro d cs heq
          cases heq
      | cons d cs =>
        obtain ⟨e, es, -, he, hcons'⟩ := exists_first_byte d
        rw [hcons', hbytes, opensTag_cons_cons, hchar, blind_followsMark.test_byte he]
    · obtain ⟨b, bs, -, hb, hcons⟩ := exists_first_byte ch
      have hno : (charOfByte b == '<') = false :=
        beq_eq_false_of_not_isAscii (not_isAscii_of_mem_encode hch hb) (by decide)
      have hnotag : opensTag (ch :: cs) = false := by
        cases cs with
        | nil =>
          rw [opensTag]
          intro d cs heq
          cases heq
        | cons d cs =>
          rw [opensTag_cons_cons, beq_eq_false_of_not_isAscii hch (by decide), Bool.false_and]
      rw [hcons, hnotag]
      cases bs ++ Chars.bytes cs with
      | nil => rfl
      | cons d ds => rw [hbytes, hno, Bool.false_and]

/-- A run of text ends at the same place. -/
theorem bytes_runEndFrom (cs : List Char) (pos : Nat) (prev : Option Char) :
    Bytes.runEndFrom (Chars.bytes cs) pos (prev.bind lastByte?) =
      (runEndFrom cs pos prev).bytes := by
  -- by induction on the characters; the later bytes of one end nothing
  induction cs generalizing pos prev with
  | nil => rfl
  | cons ch cs ih =>
    by_cases hch : IsAscii ch
    · obtain ⟨b, hchar, hlast, hcons⟩ := exists_bytes_cons hch
      rw [hcons, Bytes.runEndFrom, runEndFrom, hchar, Cursor.head?_bytes_beq cs (by decide),
        ← hcons, bytes_opensTag]
      split
      · rfl
      · rw [← ih, isAscii_iff_utf8Size.mp hch, Option.bind_some, hlast]
    · -- neither braces nor a tag
      have hno : ∀ d, ¬IsAscii d → ∀ mark, IsAscii mark → (d == mark) = false :=
        fun _ hd _ hmark => beq_eq_false_of_not_isAscii hd hmark
      have hscan : ∀ b ∈ String.utf8EncodeChar ch, ∀ bs pos prev,
          Bytes.runEndFrom (b :: bs) pos prev = Bytes.runEndFrom bs (pos + 1) (some b) := by
        intro b hb bs pos prev
        have hhigh := not_isAscii_of_mem_encode hch hb
        have htag : Bytes.opensTag (b :: bs) = false := by
          cases bs with
          | nil => rfl
          | cons d ds => simp [Bytes.opensTag, hno _ hhigh '<' (by decide)]
        rw [Bytes.runEndFrom, hno _ hhigh '\x7b' (by decide), htag]
        rfl
      have htag : opensTag (ch :: cs) = false := by
        rw [opensTag]
        intro d cs heq
        exact hch ((List.cons.inj heq).1 ▸ (by decide : IsAscii '<'))
      rw [scan_char _ hscan, runEndFrom, hno ch hch '\x7b' (by decide), htag, Bool.false_and,
        Bool.or_self, if_neg Bool.false_ne_true, ← ih]
      rfl

/-- The end of a run is not behind its start. -/
theorem ahead_runEndFrom (c : Cursor) : c.Ahead (runEndFrom c.rest c.pos c.prev) := by
  obtain ⟨cs, pos, prev⟩ := c
  obtain ⟨front, rest, rfl, hrest, hinner⟩ := Cursor.exists_first_end endsRun rfl cs
  rw [runEndFrom_append pos prev hinner hrest]
  exact Cursor.ahead_mk _ _ _ _ _

section Source

variable {source : String} (base : Nat)

/-- The node of a run is the same, and no cut fails. -/
theorem bytes_textNode {start stop : Cursor} (hstart : start.StandsIn source)
    (hahead : start.Ahead stop) :
    Bytes.textNode source base start.bytes stop.bytes = some (textNode base start stop) := by
  rw [Bytes.textNode, bytes_textBetween hstart hahead, Option.map_some, textNode]
  rfl

/-- A run of text and interpolations is read alike. -/
theorem bytes_readRun {start c : Cursor} (hstart : start.StandsIn source) (hahead : start.Ahead c)
    (acc : List Node) {fuel : Nat} (hfuel : c.rest.length < fuel) :
    Bytes.readRun source base fuel start.bytes c.bytes acc =
      some ((readRun base fuel start c acc).1, (readRun base fuel start c acc).2.bytes) := by
  induction fuel generalizing start c acc with
  | zero => cases hfuel
  | succ fuel ih =>
    have hend := bytes_runEndFrom c.rest c.pos c.prev
    have hstop := ahead_runEndFrom c
    have hno : Bytes.runEndFrom c.bytes.rest c.bytes.pos c.bytes.prev =
      (runEndFrom c.rest c.pos c.prev).bytes := hend
    rw [Bytes.readRun, readRun, hno]
    generalize runEndFrom c.rest c.pos c.prev = stop at hstop
    have htext := bytes_textNode base hstart (hahead.trans hstop)
    rw [htext, Cursor.bytes_sees isAscii_of_mem_bracesOpen stop]
    dsimp only
    split
    · -- an interpolation: what stands behind it is shorter and read in the same way
      rename_i hsees
      obtain ⟨rest, hrest⟩ : bracesOpen <+: stop.rest := List.isPrefixOf_iff_prefix.mp hsees
      have hopen : stop.bytes.skip 2 = (stop.skip 2).bytes :=
        bytes_skip_of_rest isAscii_of_mem_bracesOpen hrest.symm
      rw [hopen, Cursor.bytes_seek? isAscii_of_mem_bracesClose (by decide)]
      cases hseek : (stop.skip 2).seek? ['\x7d', '\x7d'] with
      | none => rfl
      | some close =>
        have hinner := (hstart.ahead (hahead.trans hstop)).ahead (stop.ahead_skip 2)
        have hclose := Cursor.ahead_of_seek? (by decide) hseek
        have hafter := hinner.ahead (hclose.trans (close.ahead_skip 2))
        obtain ⟨body, more, hbody, -, hcloses⟩ := Cursor.exists_seek? (by decide) hseek
        have hskip : close.bytes.skip 2 = (close.skip 2).bytes :=
          bytes_skip_of_rest isAscii_of_mem_bracesClose
            (by rw [hcloses]; rfl : close.rest = bracesClose ++ more)
        have hmore : (close.skip 2).rest = more := by
          rw [hcloses]
          rfl
        have hlen : (close.skip 2).rest.length < fuel := by
          have hle := (hstop.trans (stop.ahead_skip 2)).length_le
          rw [hbody, List.length_append, List.length_append, List.length_cons] at hle
          rw [hmore]
          omega
        simp only [Option.map_some, bytes_textBetween hinner hclose, hskip]
        exact ih hafter (Cursor.Ahead.refl _) _ hlen
    · rfl

/-! ## Start tags -/

/-- The names of raw elements are of one byte each. -/
theorem isAscii_of_mem_rawElement : ∀ ch ∈ "script".toList ++ "style".toList, IsAscii ch :=
  isAscii_of_all (by decide)

/-- The name of an element that is no markup is written in ASCII letters. -/
theorem isAscii_of_mem_closingMark {name : List Char} (hname : isRawName name = true) :
    ∀ ch ∈ closingMark name, IsAscii ch := by
  intro ch hch
  rw [closingMark, List.mem_cons, List.mem_cons] at hch
  rcases hch with rfl | rfl | hch
  · decide
  · decide
  · -- names are compared in lower case, and a longer character is its own lower case
    refine Classical.byContradiction fun hascii => hascii ?_
    have hlower := List.mem_map_of_mem (f := Char.toLower) hch
    have hupper : ¬(ch.val ≥ 'A'.val ∧ ch.val ≤ 'Z'.val) := by
      rintro ⟨-, hle⟩
      exact hascii (Nat.lt_of_le_of_lt (UInt32.le_iff_toNat_le.mp hle) (by decide))
    have hsame : ch.toLower = ch := dif_neg hupper
    have hraw : name.map Char.toLower = "script".toList ∨
        name.map Char.toLower = "style".toList := by
      simpa [isRawName, rawElements, String.ext_iff] using hname
    rw [hsame] at hlower
    apply isAscii_of_mem_rawElement
    rw [List.mem_append]
    rcases hraw with h | h
    · exact Or.inl (h ▸ hlower)
    · exact Or.inr (h ▸ hlower)

/-- Where a tag ends, its mark stands. -/
theorem exists_of_tagStop? {rest : List Char} {pos : Nat} {prev : Option Char} {stop : Cursor}
    (h : tagStop? rest pos prev = some stop) : ∃ more, stop.rest = '>' :: more := by
  unfold tagStop? at h
  split at h
  · obtain rfl := Option.some.inj h
    exact ⟨_, rfl⟩
  · obtain rfl := Option.some.inj h
    exact ⟨_, rfl⟩
  · cases h

/-- Behind a start tag both readings go on at the same place. -/
theorem bytes_afterStartTag (name : List Char) (c : Cursor) {stop : Option Cursor}
    (hstop : ∀ d ∈ stop, ∃ more, d.rest = '>' :: more) :
    Bytes.afterStartTag (String.ofList name) c.bytes (stop.map Cursor.bytes) =
      (afterStartTag name c stop).bytes := by
  cases stop with
  | none => exact Cursor.bytes_toEnd c
  | some stop =>
    obtain ⟨more, hmore⟩ := hstop stop rfl
    have hnext : stop.bytes.next = stop.next.bytes := bytes_next_of_rest (by decide) hmore
    rw [Option.map_some, Bytes.afterStartTag, afterStartTag, bytes_isSelfClosing, hnext,
      String.toList_ofList, ← isRawName]
    split
    · -- the content of a raw element ends at its own closing tag
      rename_i hraw
      have hname : isRawName name = true := (Bool.and_eq_true_iff.mp hraw).2
      have hseek := Cursor.bytes_seek? (isAscii_of_mem_closingMark hname) (List.cons_ne_nil _ _)
        stop.next
      rw [closingMark] at hseek ⊢
      rw [hseek]
      cases stop.next.seek? ('<' :: '/' :: name) with
      | none => exact Cursor.bytes_toEnd c
      | some close => exact bytes_afterTag close
    · rfl

/-- No byte of a longer character may stand in the name of a tag. -/
theorem blind_isTagNameChar : Blind isTagNameChar :=
  ((blind_isSpace.or (blind_beq (by decide))).or (blind_beq (by decide))).not

/-- A start tag is read from its name on, byte by byte. -/
theorem bytes_readStartTag_name {name rest : List Char} {pos : Nat} {prev : Option Char}
    (hname : ∀ ch ∈ name, isTagNameChar ch = true) (hrest : StopsAt isTagNameChar rest)
    (hc : (Cursor.mk ('<' :: (name ++ rest)) pos prev).StandsIn source) (fuel : Nat) :
    Bytes.readStartTag source base fuel (Cursor.mk ('<' :: (name ++ rest)) pos prev).bytes =
      (Bytes.readAttributes source base fuel
        (Cursor.mk rest (pos + 1 + Chars.size name) (behind (some '<') name)).bytes []).map
        fun read => (read.1.map Node.attribute, Bytes.afterStartTag (String.ofList name)
          (Cursor.mk ('<' :: (name ++ rest)) pos prev).bytes read.2) := by
  have hnext : (Cursor.mk ('<' :: (name ++ rest)) pos prev).bytes.next =
      (Cursor.mk (name ++ rest) (pos + 1) (some '<')).bytes :=
    bytes_next_of_rest (by decide) rfl
  -- the bytes of a name are skipped as its characters are, and end at the same place
  have hskip := Cursor.bytes_skipWhile blind_isTagNameChar ⟨name ++ rest, pos + 1, some '<'⟩
  rw [Cursor.skipWhile_append name (pos + 1) (some '<') hname hrest] at hskip
  unfold isTagNameChar at hskip
  have hahead := Cursor.ahead_mk name rest (pos + 1) (some '<') (behind (some '<') name)
  have hstart : (Cursor.mk (name ++ rest) (pos + 1) (some '<')).StandsIn source :=
    hc.ahead (Cursor.ahead_next _)
  have htext := bytes_textBetween hstart hahead
  rw [Cursor.textTo_append] at htext
  rw [Bytes.readStartTag]
  simp only [hnext, hskip, htext]

/-! ## Pieces -/

section Read

variable (fuel pos : Nat) (prev : Option Char) (acc : List Node)

/-- At a comment the reading goes on behind it. -/
theorem bytes_nodesFrom_comment (cs : List Char) :
    Bytes.nodesFrom source base (fuel + 1) (Cursor.mk (commentOpen ++ cs) pos prev).bytes acc =
      Bytes.nodesFrom source base fuel
        (afterComment ⟨commentOpen ++ cs, pos, prev⟩).bytes acc := by
  have hsees : (Cursor.mk (commentOpen ++ cs) pos prev).sees commentOpen = true :=
    List.isPrefixOf_iff_prefix.mpr (List.prefix_append commentOpen cs)
  rw [← bytes_afterComment hsees, Bytes.nodesFrom, Cursor.bytes_sees isAscii_of_mem_commentOpen,
    hsees]
  rfl

/-- At a closing tag the reading goes on behind it. -/
theorem bytes_nodesFrom_closing {ch : Char} {cs : List Char} (hch : opensPassed ch = true)
    (hcomment : ¬commentOpen <+: '<' :: ch :: cs) :
    Bytes.nodesFrom source base (fuel + 1) (Cursor.mk ('<' :: ch :: cs) pos prev).bytes acc =
      Bytes.nodesFrom source base fuel (afterTag ⟨ch :: cs, pos + 1, some '<'⟩).bytes acc := by
  have hsees : (Cursor.mk ('<' :: ch :: cs) pos prev).sees commentOpen = false := by
    rw [Bool.eq_false_iff]
    exact fun h => hcomment (List.isPrefixOf_iff_prefix.mp h)
  have hnext : (Cursor.mk ('<' :: ch :: cs) pos prev).bytes.next =
      (Cursor.mk (ch :: cs) (pos + 1) (some '<')).bytes :=
    bytes_next_of_rest (by decide) rfl
  obtain ⟨b, hchar, -, hcons⟩ := exists_bytes_cons (by decide : IsAscii '<')
  obtain ⟨d, ds, -, hd, hcons'⟩ := exists_first_byte ch
  -- what the first byte passes the character passes
  have hbyte := blind_opensPassed.test_byte hd
  rw [hch, opensPassed] at hbyte
  rw [← bytes_afterTag, Bytes.nodesFrom, Cursor.bytes_sees isAscii_of_mem_commentOpen, hsees, hnext]
  simp only [Cursor.bytes_mk, hcons, hcons', hchar, List.head?_cons, Option.map_some, hbyte]
  rfl

/-- At a start tag its nodes are added, if the tag can be read. -/
theorem bytes_nodesFrom_startTag {ch : Char} (hch : isAsciiLetter ch = true) (cs : List Char) :
    Bytes.nodesFrom source base (fuel + 1) (Cursor.mk ('<' :: ch :: cs) pos prev).bytes acc =
      (Bytes.readStartTag source base (fuel + 1)
        (Cursor.mk ('<' :: ch :: cs) pos prev).bytes).bind fun read =>
          Bytes.nodesFrom source base fuel read.2 (read.1.reverse ++ acc) := by
  -- a letter behind the bracket opens neither a comment nor a closing tag
  have hpassed : opensPassed ch = false := by
    rw [Bool.eq_false_iff]
    intro hpassed
    simp only [opensPassed, Bool.or_eq_true, beq_iff_eq] at hpassed
    rcases hpassed with (rfl | rfl) | rfl <;> exact absurd hch (by decide)
  have hsees : (Cursor.mk ('<' :: ch :: cs) pos prev).sees commentOpen = false := by
    refine sees_commentOpen_of_ne ?_ cs pos prev
    rintro rfl
    exact absurd hch (by decide)
  obtain ⟨b, hchar, -, hcons⟩ := exists_bytes_cons (by decide : IsAscii '<')
  obtain ⟨d, ds, -, hd, hcons'⟩ := exists_first_byte ch
  have hbyte := blind_opensPassed.test_byte hd
  rw [hpassed, opensPassed] at hbyte
  have hletter := blind_isAsciiLetter.test_byte hd
  rw [Bytes.nodesFrom, Cursor.bytes_sees isAscii_of_mem_commentOpen, hsees]
  simp only [Cursor.bytes_mk, hcons, hcons', hchar, List.head?_cons, Option.map_some, hbyte,
    hletter, hch]
  rfl

/-- Where no tag opens, a run of text is read. -/
theorem Bytes.nodesFrom_run {c : BytePlace} (hne : c.rest ≠ [])
    (htag : Bytes.opensTag c.rest = false) (hsees : c.sees commentOpen = false) :
    Bytes.nodesFrom source base (fuel + 1) c acc =
      (Bytes.readRun source base (fuel + 1) c c []).bind fun read =>
        Bytes.nodesFrom source base fuel (if read.2.pos == c.pos then c.next else read.2)
          (read.1.reverse ++ acc) := by
  obtain ⟨rest, pos, prev⟩ := c
  dsimp only at hne htag
  cases rest with
  | nil => exact absurd rfl hne
  | cons b rest =>
    rw [Bytes.nodesFrom]
    dsimp only
    split
    · rename_i hmark
      cases rest with
      | nil => rfl
      | cons d ds =>
        -- a bracket that opens no tag is part of the run
        have hfollows : followsMark (charOfByte d) = false := by
          rw [Bytes.opensTag, hmark, Bool.true_and] at htag
          exact htag
        simp only [followsMark, Bool.or_eq_false_iff] at hfollows
        obtain ⟨⟨⟨hletter, hslash⟩, hbang⟩, hquery⟩ := hfollows
        simp only [List.head?_cons, Option.map_some, hsees, hletter, hslash, hbang, hquery,
          Bool.or_self, Bool.false_eq_true, if_false]
    · rfl

/-- At a run of text its nodes are added. -/
theorem bytes_nodesFrom_run {cs : List Char} (hne : cs ≠ []) (htag : opensTag cs = false)
    (hc : (Cursor.mk cs pos prev).StandsIn source) (hfuel : cs.length < fuel + 1) :
    Bytes.nodesFrom source base (fuel + 1) (Cursor.mk cs pos prev).bytes acc =
      let read := readRun base (fuel + 1) ⟨cs, pos, prev⟩ ⟨cs, pos, prev⟩ []
      Bytes.nodesFrom source base fuel
        (if read.2.pos == pos then (Cursor.mk cs pos prev).bytes.next else read.2.bytes)
        (read.1.reverse ++ acc) := by
  have hread := bytes_readRun base hc (Cursor.Ahead.refl _) [] hfuel
  have hsees : (Cursor.mk cs pos prev).bytes.sees commentOpen = false := by
    rw [Cursor.bytes_sees isAscii_of_mem_commentOpen, Bool.eq_false_iff]
    intro hsees
    obtain ⟨more, rfl⟩ : commentOpen <+: cs := List.isPrefixOf_iff_prefix.mp hsees
    cases htag
  -- no character, no byte: a run that is not empty has bytes to read
  have hbytes : Chars.bytes cs ≠ [] := by
    intro hnil
    have hle := Chars.length_le_bytes cs
    rw [hnil] at hle
    exact hne (List.eq_nil_of_length_eq_zero (Nat.le_zero.mp hle))
  rw [← bytes_opensTag] at htag
  rw [Bytes.nodesFrom_run base fuel acc hbytes htag hsees, hread]
  rfl

/-- A start tag is read as its attributes, unless one of its items leads into a character. -/
theorem bytes_readStartTag_tag {name close raw rest : List Char} {items : List Item}
    (hname : IsTagName name)
    (hend : StopsAt isTagNameChar (Item.written items ++ (close ++ (raw ++ rest))))
    (hitems : ItemsFit (close ++ (raw ++ rest)) items)
    (hclose : CloseFits name items close raw rest)
    (hc : (Cursor.mk ((Piece.tag name items close raw).chars ++ rest) pos prev).StandsIn source)
    (hfuel : ((Piece.tag name items close raw).chars ++ rest).length < fuel) :
    Bytes.readStartTag source base fuel
        (Cursor.mk ((Piece.tag name items close raw).chars ++ rest) pos prev).bytes =
      if items.any Item.cuts then none
      else some ((Piece.tag name items close raw).nodes (pos + base),
        (Cursor.mk rest (pos + Chars.size (Piece.tag name items close raw).chars)
          (behind prev (Piece.tag name items close raw).chars)).bytes) := by
  have hchars : (Piece.tag name items close raw).chars ++ rest =
      '<' :: (name ++ (Item.written items ++ (close ++ (raw ++ rest)))) := by
    simp [Piece.chars]
  rw [hchars] at hc hfuel
  -- the attributes start behind the name
  have hstart : (Cursor.mk (Item.written items ++ (close ++ (raw ++ rest)))
      (pos + 1 + Chars.size name) (behind (some '<') name)).StandsIn source :=
    (hc.ahead (Cursor.ahead_next _)).ahead (Cursor.ahead_mk name _ (pos + 1) (some '<') _)
  have hlen : (Item.written items ++ (close ++ (raw ++ rest))).length < fuel := by
    simp only [List.length_cons, List.length_append] at hfuel ⊢
    omega
  have hoffset : pos + 1 + Chars.size name + base = pos + base + 1 + Chars.size name := by omega
  -- the name, then the attributes, then what the tag encloses
  rw [hchars, bytes_readStartTag_name base hname.2 hend hc,
    bytes_readAttributes_items base _ _ _ [] hclose.endsTag hitems hstart hlen]
  split
  · rfl
  · rw [Option.map_some, List.reverse_nil, List.nil_append, hoffset, ← Cursor.behind_append]
    dsimp only
    rw [bytes_afterStartTag _ _ fun d hd => exists_of_tagStop? hd, afterStartTag_close hclose]
    rfl

/-- A piece that is no part of a run is read as what it is. -/
theorem bytes_nodesFrom_piece {p : Piece} {rest : List Char} (hfits : p.Fits rest)
    (hrun : p.isRun = false) (hc : (Cursor.mk (p.chars ++ rest) pos prev).StandsIn source)
    (hfuel : (p.chars ++ rest).length < fuel + 1) :
    Bytes.nodesFrom source base (fuel + 1) (Cursor.mk (p.chars ++ rest) pos prev).bytes acc =
      if p.cuts then none
      else Bytes.nodesFrom source base fuel
        (Cursor.mk rest (pos + Chars.size p.chars) (behind prev p.chars)).bytes
        ((p.nodes (pos + base)).reverse ++ acc) := by
  cases hfits with
  | @comment body _ hfirst =>
    have hafter := afterComment_append hfirst rest pos prev
    rw [Piece.chars, List.append_assoc, List.append_assoc, bytes_nodesFrom_comment, hafter]
    rfl
  | openComment hnone =>
    rw [Piece.chars, List.append_nil, bytes_nodesFrom_comment, afterComment_open hnone]
    rfl
  | @closing ch cs _ hch hcomment hclosed =>
    -- a closing tag is no comment
    have hno : ¬commentOpen <+: '<' :: ch :: (cs ++ rest) :=
      not_commentOpen_append (List.mem_cons_of_mem _ (mem_of_closesTag hclosed)) hcomment rest
    have hafter := afterTag_append hclosed rest (pos + 1) (some '<')
    rw [List.cons_append] at hafter
    rw [Piece.chars, List.cons_append, List.cons_append,
      bytes_nodesFrom_closing base fuel pos prev acc hch hno, hafter, Chars.size_cons '<',
      ← Nat.add_assoc, Cursor.behind_cons prev]
    rfl
  | @openClosing ch cs hch hcomment hopen =>
    rw [Piece.chars, List.append_nil, bytes_nodesFrom_closing base fuel pos prev acc hch hcomment,
      afterTag_open hopen, Chars.size_cons '<', ← Nat.add_assoc, Cursor.behind_cons prev]
    rfl
  | @brace cs hopen =>
    -- braces that are never closed are passed one at a time
    have hread := readRun_end base fuel pos prev [] ('\x7b' :: '\x7b' :: cs) rfl
      (fun _ => hopen)
    have hnext : (Cursor.mk ('\x7b' :: '\x7b' :: cs) pos prev).bytes.next =
        (Cursor.mk ('\x7b' :: cs) (pos + 1) (some '\x7b')).bytes :=
      bytes_next_of_rest (by decide) rfl
    rw [Piece.chars, List.singleton_append] at hc hfuel ⊢
    rw [bytes_nodesFrom_run base fuel pos prev acc (List.cons_ne_nil _ _) rfl hc hfuel, hread]
    simp only [beq_self_eq_true, if_true, hnext]
    rfl
  | text => cases hrun
  | interpolation => cases hrun
  | @tag name close raw _ items hname hend hitems hclose =>
    have hread := bytes_readStartTag_tag base _ pos prev hname hend hitems hclose hc hfuel
    obtain ⟨⟨ch, cs, rfl, hch⟩, -⟩ := hname
    have hcons : ∃ more, (Piece.tag (ch :: cs) items close raw).chars ++ rest =
        '<' :: ch :: more := ⟨_, rfl⟩
    obtain ⟨more, hmore⟩ := hcons
    rw [hmore] at hread
    rw [hmore, bytes_nodesFrom_startTag base fuel pos prev acc hch, hread, Piece.cuts]
    split <;> rfl

/-- The pieces at the front that are parts of a run are read at once. -/
theorem bytes_nodesFrom_parts {p : Piece} {ps : List Piece} (hfit : PiecesFit (p :: ps))
    (hrun : p.isRun = true) (hc : (Cursor.mk (Piece.written (p :: ps)) pos prev).StandsIn source)
    (hfuel : (Piece.written (p :: ps)).length < fuel + 1) :
    Bytes.nodesFrom source base (fuel + 1) (Cursor.mk (Piece.written (p :: ps)) pos prev).bytes
        acc =
      Bytes.nodesFrom source base fuel
        (Cursor.mk (Piece.written ((p :: ps).dropWhile Piece.isRun))
          (pos + Chars.size (Piece.written ((p :: ps).takeWhile Piece.isRun)))
          (behind prev (Piece.written ((p :: ps).takeWhile Piece.isRun)))).bytes
        ((Piece.nodesAll (pos + base) ((p :: ps).takeWhile Piece.isRun)).reverse ++ acc) := by
  have hne : Piece.written (p :: ps) ≠ [] := by
    rw [Piece.written_cons]
    exact List.append_ne_nil_of_left_ne_nil hfit.1.chars_ne_nil _
  -- the run has a character, so the reader moves on
  have hmoved : ¬(pos + Chars.size (Piece.written ((p :: ps).takeWhile Piece.isRun)) == pos) =
      true := by
    rw [List.takeWhile_cons_of_pos hrun, Piece.written_cons, Chars.size_append, beq_iff_eq]
    have hsize := mt Chars.eq_nil_of_size_eq_zero hfit.1.chars_ne_nil
    omega
  have hread := readRun_pieces hfit base pos prev [] hfuel
  rw [List.nil_append] at hread
  rw [bytes_nodesFrom_run base fuel pos prev acc hne (opensTag_of_isRun hfit.1 hrun) hc hfuel,
    hread]
  dsimp only
  rw [if_neg hmoved]

end Read

/-- A run of text is never cut inside a character. -/
theorem cuts_of_isRun {p : Piece} (h : p.isRun = true) : p.cuts = false := by
  cases p with
  | text => rfl
  | interpolation => rfl
  | _ => cases h

/-- The nodes of a text are those of its pieces, unless one of them leads into a character. -/
theorem bytes_nodesFrom_pieces {ps : List Piece} (hfit : PiecesFit ps) {fuel : Nat} (pos : Nat)
    (prev : Option Char) (acc : List Node)
    (hc : (Cursor.mk (Piece.written ps) pos prev).StandsIn source)
    (hfuel : (Piece.written ps).length < fuel) :
    Bytes.nodesFrom source base fuel (Cursor.mk (Piece.written ps) pos prev).bytes acc =
      if ps.any Piece.cuts then none
      else some ((Piece.nodesAll (pos + base) ps).reverse ++ acc) := by
  -- on the fuel and not on the pieces: a run takes several of them in one step
  induction fuel generalizing ps pos prev acc with
  | zero => cases hfuel
  | succ fuel ih =>
    cases ps with
    | nil => rfl
    | cons p ps =>
      obtain ⟨hp, hps⟩ := id hfit
      have hlen := List.length_pos_iff.mpr hp.chars_ne_nil
      have hlen' := hfuel
      rw [Piece.written_cons, List.length_append] at hlen'
      by_cases hrun : p.isRun = true
      · have hcut : (p :: ps).takeWhile Piece.isRun ++ (p :: ps).dropWhile Piece.isRun = p :: ps :=
          List.takeWhile_append_dropWhile
        have hrest : PiecesFit ((p :: ps).dropWhile Piece.isRun) := by
          apply PiecesFit.of_append ((p :: ps).takeWhile Piece.isRun)
          rwa [hcut]
        have hshort : (Piece.written ((p :: ps).dropWhile Piece.isRun)).length < fuel := by
          rw [List.dropWhile_cons_of_pos hrun]
          have hle := (Piece.written_dropWhile_suffix Piece.isRun ps).length_le
          omega
        have hwritten : Piece.written (p :: ps) =
            Piece.written ((p :: ps).takeWhile Piece.isRun) ++
              Piece.written ((p :: ps).dropWhile Piece.isRun) := by
          rw [← Piece.written_append, hcut]
        have hstands := hc
        rw [hwritten] at hstands
        have hahead := hstands.ahead (Cursor.ahead_mk _ _ pos prev
          (behind prev (Piece.written ((p :: ps).takeWhile Piece.isRun))))
        have hruns : ((p :: ps).takeWhile Piece.isRun).any Piece.cuts = false := by
          rw [List.any_eq_false]
          intro q hq
          rw [cuts_of_isRun (List.all_eq_true.mp List.all_takeWhile q hq)]
          exact Bool.false_ne_true
        have hany : (p :: ps).any Piece.cuts =
            ((p :: ps).dropWhile Piece.isRun).any Piece.cuts := by
          conv => lhs; rw [← hcut]
          rw [List.any_append, hruns, Bool.false_or]
        have hnodes : Piece.nodesAll (pos + base) (p :: ps) =
            Piece.nodesAll (pos + base) ((p :: ps).takeWhile Piece.isRun) ++
              Piece.nodesAll (pos + base +
                Chars.size (Piece.written ((p :: ps).takeWhile Piece.isRun)))
                ((p :: ps).dropWhile Piece.isRun) := by
          rw [← Piece.nodesAll_append, hcut]
        rw [bytes_nodesFrom_parts base fuel pos prev acc hfit hrun hc hfuel,
          ih hrest _ _ _ hahead hshort, hany, hnodes, List.reverse_append, List.append_assoc,
          Nat.add_right_comm pos]
      · rw [Bool.not_eq_true] at hrun
        have hahead := hc.ahead (Cursor.ahead_mk p.chars (Piece.written ps) pos prev
          (behind prev p.chars))
        rw [Piece.written_cons, bytes_nodesFrom_piece base fuel pos prev acc hp hrun hc hfuel,
          ih hps _ _ _ hahead (by omega), List.any_cons, Piece.nodesAll, List.reverse_append,
          List.append_assoc, Nat.add_right_comm pos]
        cases p.cuts <;> rfl

end Source

end TextHarvest.Component
