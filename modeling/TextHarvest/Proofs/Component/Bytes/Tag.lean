import TextHarvest.Component.Bytes
import TextHarvest.Proofs.Component.Pieces
import TextHarvest.Proofs.Text.Bytes

/-!
# Reading a tag byte by byte

The parts of a tag end at ASCII characters, so that a scan of its bytes stops where a cursor stops
that moves over its characters. The items of a tag are read alike, but for a value without a name
in front of a character of several bytes: the scan goes on inside that character.

Main results:

* `bytes_tagEnd?`, `bytes_skipNameFrom`, `bytes_readValue` — the parts of a tag.
* `readAttributes_inside` — from inside a character there is no answer.
* `bytes_readAttributes_items` — a written sequence of items is read as its attributes, unless one
  of them leads into a character.
-/

namespace TextHarvest.Component

open Cursor (behind StopsAt)

/-- A value without a name that a character of several bytes follows at once. Passing over one
byte behind the value leads into that character. -/
def Item.cuts : Item → Bool
  | .stray _ (some ch) => 1 < ch.utf8Size
  | _ => false

/-! ## Parts of a tag -/

/-- Longer characters are no blanks of a tag. -/
theorem isSpace_eq_false_of_not_isAscii {ch : Char} (h : ¬IsAscii ch) : isSpace ch = false := by
  have hne : ∀ mark, IsAscii mark → (ch == mark) = false :=
    fun _ hmark => beq_eq_false_of_not_isAscii h hmark
  simp [isSpace, hne ' ' (by decide), hne '\t' (by decide), hne '\n' (by decide),
    hne '\x0c' (by decide), hne '\r' (by decide)]

/-- The test for blanks does not see longer characters. -/
theorem blind_isSpace : Blind isSpace :=
  ⟨false, fun _ => isSpace_eq_false_of_not_isAscii⟩

/-- No quote, and no end of a tag, is a character of several bytes. -/
theorem plain_of_not_isAscii {ch : Char} (h : ¬IsAscii ch) :
    (ch == '\x22' || ch == '\x27') = false ∧ (ch == '>') = false := by
  have hne : ∀ mark, IsAscii mark → (ch == mark) = false :=
    fun _ hmark => beq_eq_false_of_not_isAscii h hmark
  rw [hne '\x22' (by decide), hne '\x27' (by decide), hne '>' (by decide)]
  exact ⟨rfl, rfl⟩

/-- The end of a tag is found at the same place. -/
theorem bytes_tagEndFrom (cs : List Char) (pos : Nat) (prev quote : Option Char)
    (hquote : ∀ q ∈ quote, IsAscii q) :
    Bytes.tagEndFrom (Chars.bytes cs) pos (prev.bind lastByte?) quote =
      (tagEndFrom cs pos prev quote).map Cursor.bytes := by
  induction cs generalizing pos prev quote with
  | nil => rfl
  | cons ch cs ih =>
    by_cases hch : IsAscii ch
    · obtain ⟨b, hchar, hlast, hcons⟩ := exists_bytes_cons hch
      have hgo : ∀ q, (∀ d ∈ q, IsAscii d) →
          Bytes.tagEndFrom (Chars.bytes cs) (pos + 1) (some b) q =
            (tagEndFrom cs (pos + ch.utf8Size) (some ch) q).map Cursor.bytes := by
        intro q hq
        rw [← ih _ _ _ hq, isAscii_iff_utf8Size.mp hch, Option.bind_some, hlast]
      cases quote with
      | some q =>
        rw [hcons, Bytes.tagEndFrom, tagEndFrom, hchar]
        refine hgo _ fun d hd => ?_
        split at hd
        · cases hd
        · exact hquote d hd
      | none =>
        rw [hcons, Bytes.tagEndFrom, tagEndFrom, hchar]
        split
        · exact hgo _ fun d hd => (Option.some.inj hd) ▸ hch
        · split
          · rw [Option.map_some, Cursor.bytes_mk, hcons]
          · exact hgo _ fun d hd => by cases hd
    · -- neither a quote nor the end of the tag
      have hscan : ∀ b ∈ String.utf8EncodeChar ch, ∀ bs pos prev,
          Bytes.tagEndFrom (b :: bs) pos prev quote =
            Bytes.tagEndFrom bs (pos + 1) (some b) quote := by
        intro b hb bs pos prev
        have hhigh := not_isAscii_of_mem_encode hch hb
        cases quote with
        | some q => simp [Bytes.tagEndFrom, beq_eq_false_of_not_isAscii hhigh (hquote q rfl)]
        | none =>
          simp only [Bytes.tagEndFrom, plain_of_not_isAscii hhigh, Bool.false_eq_true, if_false]
      have hpass : tagEndFrom (ch :: cs) pos prev quote =
          tagEndFrom cs (pos + ch.utf8Size) (some ch) quote := by
        cases quote with
        | some q => simp [tagEndFrom, beq_eq_false_of_not_isAscii hch (hquote q rfl)]
        | none => simp only [tagEndFrom, plain_of_not_isAscii hch, Bool.false_eq_true, if_false]
      rw [scan_char (fun bs pos prev => Bytes.tagEndFrom bs pos prev quote) hscan, hpass,
        ← ih _ _ _ hquote]
      rfl

/-- The same for a cursor. -/
theorem bytes_tagEnd? (c : Cursor) : Bytes.tagEnd? c.bytes = (tagEnd? c).map Cursor.bytes :=
  bytes_tagEndFrom c.rest c.pos c.prev none fun _ h => by cases h

/-- A tag closes itself in both readings or in none. -/
theorem bytes_isSelfClosing (c : Cursor) : Bytes.isSelfClosing c.bytes = isSelfClosing c := by
  obtain ⟨cs, pos, prev⟩ := c
  cases prev with
  | none => rfl
  | some ch =>
    obtain ⟨b, hb⟩ := Option.isSome_iff_exists.mp (lastByte?_isSome ch)
    have hblind : Blind (· == '/') := blind_beq (by decide)
    have hslash := hblind.test_byte (List.mem_of_getLast? hb)
    rw [Bytes.isSelfClosing, BytePlace.last?, Cursor.bytes_mk, Option.bind_some, hb]
    exact hslash

/-- A name is skipped up to the same place. -/
theorem bytes_skipNameFrom (cs : List Char) (pos : Nat) (prev : Option Char) :
    Bytes.skipNameFrom (Chars.bytes cs) pos (prev.bind lastByte?) =
      (skipNameFrom cs pos prev).bytes := by
  induction cs generalizing pos prev with
  | nil => rfl
  | cons ch cs ih =>
    by_cases hch : IsAscii ch
    · obtain ⟨b, hchar, hlast, hcons⟩ := exists_bytes_cons hch
      rw [hcons, Bytes.skipNameFrom, skipNameFrom, hchar, Cursor.head?_bytes_beq cs (by decide)]
      split
      · rw [Cursor.bytes_mk, hcons]
      · rw [← ih, isAscii_iff_utf8Size.mp hch, Option.bind_some, hlast]
    · -- no end of a name
      have hends : ∀ d, ¬IsAscii d → ∀ x,
          (isSpace d || d == '=' || d == '>' || (d == '/' && x)) = false := by
        intro d hd x
        rw [isSpace_eq_false_of_not_isAscii hd, beq_eq_false_of_not_isAscii hd (by decide),
          beq_eq_false_of_not_isAscii hd (by decide), beq_eq_false_of_not_isAscii hd (by decide)]
        rfl
      have hscan : ∀ b ∈ String.utf8EncodeChar ch, ∀ bs pos prev,
          Bytes.skipNameFrom (b :: bs) pos prev = Bytes.skipNameFrom bs (pos + 1) (some b) := by
        intro b hb bs pos prev
        simp only [Bytes.skipNameFrom, hends _ (not_isAscii_of_mem_encode hch hb),
          Bool.false_eq_true, if_false]
      rw [scan_char _ hscan, skipNameFrom, hends ch hch, if_neg Bool.false_ne_true, ← ih]
      rfl

section Source

variable {source : String} (base : Nat)

/-- A text between two places of a cursor is that of the cursor. -/
theorem bytes_textBetween {c c' : Cursor} (hc : c.StandsIn source) (hahead : c.Ahead c') :
    Bytes.textBetween source c.bytes c'.bytes = some (c.textTo c'.pos) :=
  hc.slice? hahead

/-- Spans are in bytes anyway. -/
theorem bytes_spanBetween (c c' : Cursor) :
    Bytes.spanBetween base c.bytes c'.bytes = (Span.mk c.pos c'.pos).shift base := rfl

/-- The test for bare values does not see longer characters. -/
theorem blind_bare : Blind fun ch => !(isSpace ch || ch == '>') :=
  (blind_isSpace.or (blind_beq (by decide))).not

/-- Quotes are of one byte. -/
theorem isAscii_of_isQuote {ch : Char} (h : IsQuote ch) : IsAscii ch := by
  rcases h with rfl | rfl <;> decide

/-- A quote ends where the byte of its mark stands again. -/
theorem bytes_closingQuote {q : Char} (hq : IsAscii q) (c : Cursor) :
    c.bytes.skipWhile (· != q) = (c.skipWhile (· != q)).bytes ∧
      (c.skipWhile (· != q)).bytes.next = (c.skipWhile (· != q)).next.bytes := by
  have hblind : Blind (· != q) := (blind_beq hq).not
  refine ⟨Cursor.bytes_skipWhile hblind c, Cursor.bytes_next fun d hd => ?_⟩
  have hstop : (d != q) = false := Cursor.stopsAt_skipWhile (· != q) c d hd
  rw [bne_eq_false_iff_eq] at hstop
  exact hstop ▸ hq

/-- A value is read alike, and no cut fails. -/
theorem bytes_readValue {c : Cursor} (hc : c.StandsIn source) :
    Bytes.readValue source base c.bytes =
      some ((readValue base c).1, (readValue base c).2.bytes) := by
  rw [Bytes.readValue, readValue, Cursor.bytes_skipWhile blind_isSpace]
  have hc := hc.ahead (c.ahead_skipWhile isSpace)
  generalize c.skipWhile isSpace = c at hc
  obtain ⟨cs, pos, prev⟩ := c
  cases cs with
  | nil => rfl
  | cons ch cs =>
    -- a quote is ASCII and thus one byte; a bare value may start with a byte of a longer character
    by_cases hquote : IsQuote ch
    · have hch := isAscii_of_isQuote hquote
      obtain ⟨b, hchar, -, hcons⟩ := exists_bytes_cons hch
      have hhead : (Cursor.mk (ch :: cs) pos prev).bytes.head? = some ch := by
        rw [Cursor.bytes_mk, BytePlace.head?, hcons, List.head?_cons, Option.map_some, hchar]
      have hnext := Cursor.bytes_next (c := ⟨ch :: cs, pos, prev⟩)
        fun d hd => (Option.some.inj hd) ▸ hch
      have hmark : (ch == '\x22' || ch == '\x27') = true := by simpa [IsQuote] using hquote
      have hstart := hc.ahead (Cursor.ahead_next _)
      generalize (Cursor.mk (ch :: cs) pos prev).next = start at hnext hstart
      obtain ⟨hstop, hafter⟩ := bytes_closingQuote hch start
      have htext := bytes_textBetween hstart (start.ahead_skipWhile (· != ch))
      rw [hhead]
      simp only [Cursor.head?, List.head?_cons, hmark, if_true, hnext, hstop, hafter, htext,
        Option.map_some, bytes_spanBetween]
    · obtain ⟨b, bs, -, hb, hcons⟩ := exists_first_byte ch
      have hhead : (Cursor.mk (ch :: cs) pos prev).bytes.head? = some (charOfByte b) := by
        rw [Cursor.bytes_mk, BytePlace.head?, hcons, List.head?_cons, Option.map_some]
      have hmark : (ch == '\x22' || ch == '\x27') = false := by simpa [IsQuote] using hquote
      have hbyte : (charOfByte b == '\x22' || charOfByte b == '\x27') = false := by
        rw [← hmark]
        exact ((blind_beq (by decide)).or (blind_beq (by decide))).test_byte hb
      have hstop := Cursor.bytes_skipWhile blind_bare ⟨ch :: cs, pos, prev⟩
      have htext := bytes_textBetween hc
        (Cursor.ahead_skipWhile _ fun ch => !(isSpace ch || ch == '>'))
      rw [hhead]
      simp only [Cursor.head?, List.head?_cons, hmark, hbyte, Bool.false_eq_true, if_false, hstop,
        htext, Option.map_some, bytes_spanBetween]

/-- So is a value behind an equals sign. -/
theorem bytes_readAssigned {c : Cursor} (hc : c.StandsIn source) :
    Bytes.readAssigned source base c.bytes =
      some ((readAssigned base c).1, (readAssigned base c).2.bytes) := by
  have hlook := hc.ahead (c.ahead_skipWhile isSpace)
  have hhead : ((c.skipWhile isSpace).bytes.head? == some '=') =
      ((c.skipWhile isSpace).head? == some '=') := Cursor.bytes_head?_beq _ (by decide)
  rw [Bytes.readAssigned, readAssigned, Cursor.bytes_skipWhile blind_isSpace, hhead]
  split
  · -- the sign is one byte, so the reading by bytes goes on behind it as well
    rename_i hsign
    have hnext := Cursor.bytes_next (c := c.skipWhile isSpace) fun d hd => by
      rw [beq_iff_eq] at hsign
      rw [hsign] at hd
      exact (Option.some.inj hd) ▸ (by decide : IsAscii '=')
    rw [hnext, bytes_readValue base (hlook.ahead (Cursor.ahead_next _))]
  · rfl

/-! ## Attributes -/

section Read

variable (fuel pos : Nat) (prev : Option Char) (acc : List Attribute)

/-- At the end of a tag both readings are done. -/
theorem bytes_readAttributes_end {rest : List Char} (hend : EndsTag rest) :
    Bytes.readAttributes source base (fuel + 1) (Cursor.mk rest pos prev).bytes acc =
      some (acc.reverse, (tagStop? rest pos prev).map Cursor.bytes) := by
  have hstops : StopsAt isSpace rest := by
    cases hend with
    | eof => exact Cursor.stopsAt_nil _
    | mark cs => exact Cursor.stopsAt_cons.mpr (by decide)
    | slash cs => exact Cursor.stopsAt_cons.mpr (by decide)
  rw [Bytes.readAttributes, Cursor.bytes_skipWhile blind_isSpace,
    Cursor.skipWhile_of_stopsAt pos prev hstops]
  cases hend with
  | eof => rfl
  | mark cs => rfl
  | slash cs => rfl

/-- A blank is skipped. -/
theorem bytes_readAttributes_blank {ch : Char} (hspace : isSpace ch = true) (cs : List Char) :
    Bytes.readAttributes source base (fuel + 1) (Cursor.mk (ch :: cs) pos prev).bytes acc =
      Bytes.readAttributes source base (fuel + 1)
        (Cursor.mk cs (pos + ch.utf8Size) (some ch)).bytes acc := by
  have hskip : (Cursor.mk (ch :: cs) pos prev).skipWhile isSpace =
      (Cursor.mk cs (pos + ch.utf8Size) (some ch)).skipWhile isSpace := by
    rw [Cursor.skipWhile, Cursor.skipWhile, Cursor.skipWhileFrom, if_pos hspace]
  rw [Bytes.readAttributes, Bytes.readAttributes, Cursor.bytes_skipWhile blind_isSpace,
    Cursor.bytes_skipWhile blind_isSpace, hskip]

/-- A slash inside a tag is skipped. -/
theorem bytes_readAttributes_slash {cs : List Char} (hcs : cs.head? ≠ some '>') :
    Bytes.readAttributes source base (fuel + 1) (Cursor.mk ('/' :: cs) pos prev).bytes acc =
      Bytes.readAttributes source base fuel (Cursor.mk cs (pos + 1) (some '/')).bytes acc := by
  have hskip : (Cursor.mk ('/' :: cs) pos prev).skipWhile isSpace = ⟨'/' :: cs, pos, prev⟩ :=
    Cursor.skipWhile_of_stopsAt pos prev (Cursor.stopsAt_cons.mpr (by decide))
  -- whether the next byte ends the tag can be seen on the next character
  have hhead : ((Chars.bytes cs).head?.map charOfByte == some '>') = false := by
    rw [Cursor.head?_bytes_beq cs (by decide)]
    simpa using hcs
  have hnext := Cursor.bytes_next (c := ⟨'/' :: cs, pos, prev⟩)
    fun d hd => (Option.some.inj hd) ▸ (by decide : IsAscii '/')
  rw [Bytes.readAttributes, Cursor.bytes_skipWhile blind_isSpace, hskip, hnext]
  obtain ⟨b, hchar, -, hcons⟩ := exists_bytes_cons (by decide : IsAscii '/')
  simp only [Cursor.bytes_mk, hcons, hchar, hhead]
  rfl

/-- Reading goes on with an attribute, or behind the byte after a value that has no name. -/
theorem bytes_readAttributes_name {ch : Char} (hch : startsAttribute ch = true) {cs : List Char}
    (hc : (Cursor.mk (ch :: cs) pos prev).StandsIn source)
    (hname : (Cursor.mk (ch :: cs) pos prev).Ahead (skipNameFrom (ch :: cs) pos prev)) :
    Bytes.readAttributes source base (fuel + 1) (Cursor.mk (ch :: cs) pos prev).bytes acc =
      let nameEnd := skipNameFrom (ch :: cs) pos prev
      let (value, stop) := readAssigned base nameEnd
      if pos < nameEnd.pos then
        let attr : Attribute := ⟨(Cursor.mk (ch :: cs) pos prev).textTo nameEnd.pos, value,
          (Span.mk pos stop.pos).shift base⟩
        Bytes.readAttributes source base fuel stop.bytes (attr :: acc)
      else Bytes.readAttributes source base fuel stop.bytes.next acc := by
  simp only [startsAttribute, Bool.not_eq_true', Bool.or_eq_false_iff] at hch
  obtain ⟨⟨hspace, hgt⟩, hslash⟩ := hch
  have hskip : (Cursor.mk (ch :: cs) pos prev).skipWhile isSpace = ⟨ch :: cs, pos, prev⟩ :=
    Cursor.skipWhile_of_stopsAt pos prev (Cursor.stopsAt_cons.mpr hspace)
  obtain ⟨b, bs, -, hb, hcons⟩ := exists_first_byte ch
  -- the first byte of the character is taken for no mark either
  have hgt' : (charOfByte b == '>') = false :=
    ((blind_beq (by decide)).test_byte hb).trans hgt
  have hslash' : (charOfByte b == '/') = false :=
    ((blind_beq (by decide)).test_byte hb).trans hslash
  have hend := bytes_skipNameFrom (ch :: cs) pos prev
  have hread := bytes_readAssigned base (hc.ahead hname)
  have htext := bytes_textBetween hc hname
  generalize skipNameFrom (ch :: cs) pos prev = nameEnd at hend hread htext
  rw [Bytes.readAttributes, Cursor.bytes_skipWhile blind_isSpace, hskip]
  rw [Cursor.bytes_mk, hcons] at htext
  rw [hcons] at hend
  simp only [Cursor.bytes_mk, hcons, hgt', hslash', Bool.false_eq_true, if_false, hend, hread,
    htext, Cursor.bytes_pos]
  rfl

/-- An attribute is read as it is written. -/
theorem bytes_readAttributes_attr {name : List Char} {value : Assigned} {rest : List Char}
    (hname : IsAttributeName name (value.chars ++ rest)) (hvalue : value.Fits rest)
    (hc : (Cursor.mk ((Item.attr name value).chars ++ rest) pos prev).StandsIn source) :
    Bytes.readAttributes source base (fuel + 1)
        (Cursor.mk ((Item.attr name value).chars ++ rest) pos prev).bytes acc =
      Bytes.readAttributes source base fuel
        (Cursor.mk rest (pos + Chars.size (name ++ value.chars))
          (behind prev (name ++ value.chars))).bytes
        (⟨String.ofList name, value.value? (pos + base + Chars.size name),
          ⟨pos + base, pos + base + Chars.size (name ++ value.chars)⟩⟩ :: acc) := by
  obtain ⟨ch, cs, hcons, hstart, -⟩ := hname.exists_cons
  obtain ⟨hne, -, hends, hinner⟩ := hname
  have hskip := skipNameFrom_append pos prev hinner hends
  have hread := readAssigned_fits base (pos + Chars.size name) (behind prev name) hvalue
  have htext := Cursor.textTo_append name pos prev (value.chars ++ rest)
  have hsize : 0 < Chars.size name :=
    Nat.pos_of_ne_zero fun hzero => hne (Chars.eq_nil_of_size_eq_zero hzero)
  have hahead : (Cursor.mk (name ++ (value.chars ++ rest)) pos prev).Ahead
      (skipNameFrom (name ++ (value.chars ++ rest)) pos prev) := by
    rw [hskip]
    exact Cursor.ahead_mk _ _ _ _ _
  -- from here on as for characters: the name is passed, the value is read, and both are cut out
  rw [Item.chars, List.append_assoc] at hc ⊢
  rw [hcons, List.cons_append] at hc hahead
  have hhead := bytes_readAttributes_name base fuel pos prev acc hstart hc hahead
  rw [← List.cons_append, ← hcons, hskip] at hhead
  rw [hhead]
  dsimp only
  rw [hread, if_pos (by omega), htext, Chars.size_append, Cursor.behind_append]
  have hvalue : pos + Chars.size name + base = pos + base + Chars.size name := by omega
  have hstop : pos + Chars.size name + Chars.size value.chars + base =
      pos + base + (Chars.size name + Chars.size value.chars) := by omega
  dsimp only [Span.shift]
  rw [hvalue, hstop, Nat.add_assoc pos]

/-- A value without a name is passed over together with the byte after it. -/
theorem bytes_readAttributes_stray {value : Assigned} {rest : List Char}
    (hsign : value.chars.head? = some '=') (hvalue : value.Fits rest)
    (hc : (Cursor.mk (value.chars ++ rest) pos prev).StandsIn source) :
    Bytes.readAttributes source base (fuel + 1)
        (Cursor.mk (value.chars ++ rest) pos prev).bytes acc =
      Bytes.readAttributes source base fuel
        (Cursor.mk rest (pos + Chars.size value.chars) (behind prev value.chars)).bytes.next
        acc := by
  obtain ⟨cs, hcons⟩ := List.head?_eq_some_iff.mp hsign
  have hread := readAssigned_fits base pos prev hvalue
  -- there is no name in front of the equals sign
  have hskip : skipNameFrom (value.chars ++ rest) pos prev = ⟨value.chars ++ rest, pos, prev⟩ := by
    rw [hcons]
    rfl
  have hahead : (Cursor.mk (value.chars ++ rest) pos prev).Ahead
      (skipNameFrom (value.chars ++ rest) pos prev) := by
    rw [hskip]
    exact Cursor.Ahead.refl _
  rw [hcons, List.cons_append] at hc hahead
  have hhead := bytes_readAttributes_name base fuel pos prev acc (by decide) hc hahead
  rw [← List.cons_append, ← hcons, hskip] at hhead
  rw [hhead]
  dsimp only
  rw [hread, if_neg (Nat.lt_irrefl pos)]

/-- Moving over the name of an attribute does not lead back. -/
theorem le_pos_skipNameFrom (bs : List UInt8) (pos : Nat) (prev : Option UInt8) :
    pos ≤ (Bytes.skipNameFrom bs pos prev).pos := by
  induction bs generalizing pos prev with
  | nil => exact Nat.le_refl pos
  | cons b bs ih =>
    rw [Bytes.skipNameFrom]
    split
    · exact Nat.le_refl pos
    · exact Nat.le_of_succ_le (ih (pos + 1) (some b))

/-- Inside a character there is a name to be read, and it cannot be cut out. -/
theorem readAttributes_inside {front cs : List Char} {ch : Char}
    (hsource : source.toList = front ++ ch :: cs) (hch : 1 < ch.utf8Size) {b : UInt8}
    {bs : List UInt8} (hbytes : String.utf8EncodeChar ch = b :: bs) (prev : Option UInt8) :
    Bytes.readAttributes source base fuel ⟨bs ++ Chars.bytes cs, Chars.size front + 1, prev⟩ acc =
      none := by
  cases fuel with
  | zero => rfl
  | succ fuel =>
    have hascii : ¬IsAscii ch := by
      rw [isAscii_iff_utf8Size]
      omega
    have hlen : bs.length + 1 = ch.utf8Size := by
      rw [← String.length_utf8EncodeChar, hbytes, List.length_cons]
    obtain ⟨d, ds, rfl⟩ := List.exists_cons_of_length_pos (l := bs) (by omega)
    have hd : d ∈ String.utf8EncodeChar ch := by simp [hbytes]
    -- the byte is no ASCII character, neither blank nor mark, so a name is read from within
    have hhigh := not_isAscii_of_mem_encode hascii hd
    have hspace := isSpace_eq_false_of_not_isAscii hhigh
    have hne : ∀ mark, IsAscii mark → (charOfByte d == mark) = false :=
      fun _ hmark => beq_eq_false_of_not_isAscii hhigh hmark
    have hcut : ∀ stop, Bytes.textBetween source
        ⟨d :: (ds ++ Chars.bytes cs), Chars.size front + 1, prev⟩ stop = none :=
      fun stop => Text.slice?_eq_none_of_inside hsource Nat.one_pos hch stop.pos
    have hmoved : Chars.size front + 1 < (Bytes.skipNameFrom (d :: (ds ++ Chars.bytes cs))
        (Chars.size front + 1) prev).pos := by
      rw [Bytes.skipNameFrom, if_neg]
      · exact le_pos_skipNameFrom _ _ _
      · simp [hspace, hne '=' (by decide), hne '>' (by decide), hne '/' (by decide)]
    rw [List.cons_append, Bytes.readAttributes, BytePlace.skipWhile, BytePlace.skipWhileFrom,
      if_neg (by rw [hspace]; exact Bool.false_ne_true)]
    simp only [hne '>' (by decide), hne '/' (by decide), Bool.false_eq_true, if_false, hcut,
      if_pos hmoved]
    split <;> rfl

/-- A value without a name that a longer character follows stops the reading. -/
theorem bytes_readAttributes_cut {item : Item} {rest : List Char} (hfits : item.Fits rest)
    (hcuts : item.cuts = true)
    (hc : (Cursor.mk (item.chars ++ rest) pos prev).StandsIn source) :
    Bytes.readAttributes source base (fuel + 1)
      (Cursor.mk (item.chars ++ rest) pos prev).bytes acc = none := by
  cases hfits with
  | blank => cases hcuts
  | slash => cases hcuts
  | attr => cases hcuts
  | @stray value after _ hsign hvalue =>
    cases after with
    | none => cases hcuts
    | some ch =>
      -- only the character behind a stray value can be cut: reading goes on one byte behind it
      have hch : 1 < ch.utf8Size := of_decide_eq_true hcuts
      rw [Item.chars, List.append_assoc] at hc ⊢
      rw [bytes_readAttributes_stray base fuel pos prev acc hsign hvalue hc]
      obtain ⟨front, hsource, hpos⟩ := hc
      dsimp only at hsource hpos
      obtain ⟨b, bs, hbytes, -, hcons⟩ := exists_first_byte ch
      have hsource' : source.toList = (front ++ value.chars) ++ ch :: rest := by
        rw [hsource, List.append_assoc]
        rfl
      have hinside := readAttributes_inside base fuel acc hsource' hch hbytes (some b)
      rw [Chars.size_append] at hinside
      rw [Cursor.bytes_mk, Option.toList_some, List.singleton_append, hcons, hpos, Nat.zero_add]
      exact hinside

/-- Any other item is read as what it is. -/
theorem bytes_readAttributes_item {item : Item} {rest : List Char} (hfits : item.Fits rest)
    (hcuts : item.cuts = false)
    (hc : (Cursor.mk (item.chars ++ rest) pos prev).StandsIn source) :
    ∃ n, fuel ≤ n ∧
      Bytes.readAttributes source base (fuel + 1)
          (Cursor.mk (item.chars ++ rest) pos prev).bytes acc =
        Bytes.readAttributes source base n
          (Cursor.mk rest (pos + Chars.size item.chars) (behind prev item.chars)).bytes
          ((item.attribute? (pos + base)).toList ++ acc) := by
  cases hfits with
  | blank hspace =>
    exact ⟨fuel + 1, Nat.le_succ fuel,
      bytes_readAttributes_blank base fuel pos prev acc hspace rest⟩
  | slash hslash =>
    exact ⟨fuel, Nat.le_refl fuel, bytes_readAttributes_slash base fuel pos prev acc hslash⟩
  | attr hname hvalue =>
    exact ⟨fuel, Nat.le_refl fuel,
      bytes_readAttributes_attr base fuel pos prev acc hname hvalue hc⟩
  | @stray value after _ hsign hvalue hafter =>
    refine ⟨fuel, Nat.le_refl fuel, ?_⟩
    -- the character behind the value is one byte long, since the item does not cut one
    have hascii : ∀ ch ∈ (after.toList ++ rest).head?, IsAscii ch := by
      intro ch hch
      cases after with
      | none =>
        rw [hafter rfl] at hch
        cases hch
      | some d =>
        have hd : ¬1 < d.utf8Size := of_decide_eq_false hcuts
        have hpos := d.utf8Size_pos
        obtain rfl : d = ch := Option.some.inj hch
        rw [isAscii_iff_utf8Size]
        omega
    rw [Item.chars, List.append_assoc] at hc ⊢
    rw [bytes_readAttributes_stray base fuel pos prev acc hsign hvalue hc,
      Cursor.bytes_next (c := ⟨_, _, _⟩) hascii]
    cases after with
    | none => simp [hafter rfl, Cursor.next, Item.attribute?]
    | some d => simp [Item.attribute?, Nat.add_assoc]

/-- A written sequence of items is read as its attributes, unless one of them leads into a
character. -/
theorem bytes_readAttributes_items {items : List Item} {rest : List Char} (hend : EndsTag rest)
    (hfit : ItemsFit rest items)
    (hc : (Cursor.mk (Item.written items ++ rest) pos prev).StandsIn source)
    (hfuel : (Item.written items ++ rest).length < fuel) :
    Bytes.readAttributes source base fuel
        (Cursor.mk (Item.written items ++ rest) pos prev).bytes acc =
      if items.any Item.cuts then none
      else some (acc.reverse ++ Item.attributes (pos + base) items,
        (tagStop? rest (pos + Chars.size (Item.written items))
          (behind prev (Item.written items))).map Cursor.bytes) := by
  induction items generalizing fuel pos prev acc with
  | nil =>
    obtain ⟨fuel, rfl⟩ := Nat.exists_eq_add_one_of_ne_zero (Nat.ne_of_gt (Nat.zero_lt_of_lt hfuel))
    rw [Item.written_nil, List.nil_append, bytes_readAttributes_end base fuel pos prev acc hend,
      Item.attributes, List.append_nil]
    rfl
  | cons item items ih =>
    obtain ⟨hitem, hitems⟩ := hfit
    obtain ⟨fuel, rfl⟩ := Nat.exists_eq_add_one_of_ne_zero (Nat.ne_of_gt (Nat.zero_lt_of_lt hfuel))
    rw [Item.written_cons, List.append_assoc] at hc hfuel ⊢
    rw [List.any_cons]
    -- the first item that cuts a character stops the reader
    cases hcuts : item.cuts with
    | true =>
      rw [bytes_readAttributes_cut base fuel pos prev acc hitem hcuts hc]
      rfl
    | false =>
      obtain ⟨n, hn, hstep⟩ := bytes_readAttributes_item base fuel pos prev acc hitem hcuts hc
      have hlen := List.length_pos_iff.mpr hitem.chars_ne_nil
      have hrest := hc.ahead (Cursor.ahead_mk item.chars _ pos prev (behind prev item.chars))
      rw [List.length_append] at hfuel
      rw [hstep, ih _ _ _ _ hitems hrest (by omega), Chars.size_append, Cursor.behind_append,
        Item.attributes, ← Nat.add_assoc, Nat.add_right_comm pos, Bool.false_or]
      cases item.attribute? (pos + base) <;> simp

end Read

/-- Reading a tag comes to a value without a name that a character of several bytes follows. -/
def Stumbles (cs : List Char) : Prop :=
  ∃ items rest, cs = Item.written items ++ rest ∧ ItemsFit rest items ∧ EndsTag rest ∧
    ∃ item ∈ items, item.cuts = true

/-- Where the reading by bytes stumbles it has no answer. -/
theorem bytes_readAttributes_of_stumbles {c : Cursor} (hc : c.StandsIn source)
    (h : Stumbles c.rest) (acc : List Attribute) {fuel : Nat} (hfuel : c.rest.length < fuel) :
    Bytes.readAttributes source base fuel c.bytes acc = none := by
  obtain ⟨cs, pos, prev⟩ := c
  obtain ⟨items, rest, rfl, hfit, hend, hcuts⟩ := h
  rw [bytes_readAttributes_items base fuel pos prev acc hend hfit hc hfuel,
    if_pos (List.any_eq_true.mpr hcuts)]

/-- Anywhere else both readings agree. -/
theorem bytes_readAttributes_of_not_stumbles {c : Cursor} (hc : c.StandsIn source)
    (h : ¬Stumbles c.rest) (acc : List Attribute) {fuel fuel' : Nat}
    (hfuel : c.rest.length < fuel) (hfuel' : c.rest.length < fuel') :
    Bytes.readAttributes source base fuel c.bytes acc =
      some ((readAttributes base fuel' c acc).1,
        (readAttributes base fuel' c acc).2.map Cursor.bytes) := by
  obtain ⟨cs, pos, prev⟩ := c
  obtain ⟨items, rest, rfl, hfit, hend⟩ := exists_items cs
  rw [bytes_readAttributes_items base fuel pos prev acc hend hfit hc hfuel, if_neg,
    readAttributes_items hend hfit pos prev acc hfuel']
  intro hcuts
  exact h ⟨items, rest, rfl, hfit, hend, List.any_eq_true.mp hcuts⟩

/-- There is a round for each byte. -/
theorem length_lt_bytes (c : Cursor) : c.rest.length < c.bytes.rest.length + 1 :=
  Nat.lt_succ_of_le (Chars.length_le_bytes c.rest)

/-- The attributes of a tag are read alike where nothing stumbles. -/
theorem bytes_attributesFrom_of_not_stumbles {c : Cursor} (hc : c.StandsIn source)
    (h : ¬Stumbles c.rest) :
    Bytes.attributesFrom source base c.bytes =
      some ((attributes base c).1, (attributes base c).2.map Cursor.bytes) :=
  bytes_readAttributes_of_not_stumbles base hc h [] (length_lt_bytes c) (Nat.lt_succ_self _)

end Source

end TextHarvest.Component
