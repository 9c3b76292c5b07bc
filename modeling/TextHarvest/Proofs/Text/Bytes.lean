import TextHarvest.Proofs.Patch.Apart
import TextHarvest.Proofs.Text.Cursor
import TextHarvest.Text.Bytes

/-!
# Moving byte by byte

In UTF-8 every byte of a character of several bytes is above 127. A scan that looks for ASCII
characters only, and so treats all bytes above 127 alike, therefore stops between characters, where
a cursor that moves character by character stops too.

Main results:

* `bytes_skipWhile`, `bytes_seek?`, `bytes_sees` — movements of a cursor, seen in bytes.
* `slice?_eq_none_of_inside` — a text cannot be cut inside a character.
-/

namespace TextHarvest

/-! ## Characters and their bytes -/

/-- The characters of one byte. -/
def IsAscii (ch : Char) : Prop :=
  ch.toNat < 128

instance (ch : Char) : Decidable (IsAscii ch) :=
  inferInstanceAs (Decidable (_ < _))

/-- Whether the characters of a mark are ASCII is tried one by one. -/
theorem isAscii_of_all {mark : List Char} (h : mark.all (fun ch => decide (IsAscii ch)) = true) :
    ∀ ch ∈ mark, IsAscii ch :=
  fun ch hch => of_decide_eq_true (List.all_eq_true.mp h ch hch)

/-- A character is of one byte just when it is an ASCII character. -/
theorem isAscii_iff_utf8Size {ch : Char} : IsAscii ch ↔ ch.utf8Size = 1 := by
  rw [IsAscii, Char.utf8Size_eq_one_iff, UInt32.le_iff_toNat_le]
  exact Nat.lt_succ_iff

/-- The byte of an ASCII character. -/
theorem exists_encode_of_isAscii {ch : Char} (h : IsAscii ch) :
    ∃ b, String.utf8EncodeChar ch = [b] ∧ charOfByte b = ch := by
  have hle : ch.val.toNat ≤ 0x7f := Nat.lt_succ_iff.mp h
  refine ⟨UInt8.ofNat ch.val.toNat, ?_, ?_⟩
  · rw [String.utf8EncodeChar]
    exact if_pos hle
  · rw [charOfByte, UInt8.toNat_ofNat_of_lt' (Nat.lt_of_le_of_lt hle (by decide))]
    exact Char.ofNat_toNat ch

/-- The bytes of any other character are above 127. -/
theorem le_toNat_of_mem_encode {ch : Char} (h : ¬IsAscii ch) {b : UInt8}
    (hb : b ∈ String.utf8EncodeChar ch) : 128 ≤ b.toNat := by
  -- each byte of a longer form is a bit pattern below 128 on top of at least 128
  have hbyte : ∀ n k : Nat, 128 ≤ n → n + k < 256 → 128 ≤ (UInt8.ofNat (k + n)).toNat := by
    intro n k hn hk
    rw [UInt8.toNat_ofNat_of_lt' (show k + n < 256 by omega)]
    omega
  have hno : ¬ch.val.toNat ≤ 0x7f := fun hle => h (Nat.lt_succ_iff.mpr hle)
  simp only [String.utf8EncodeChar, if_neg hno] at hb
  split at hb
  · simp only [List.mem_cons, List.not_mem_nil, or_false] at hb
    rcases hb with rfl | rfl <;> exact hbyte _ _ (by decide) (by omega)
  · split at hb
    · simp only [List.mem_cons, List.not_mem_nil, or_false] at hb
      rcases hb with rfl | rfl | rfl <;> exact hbyte _ _ (by decide) (by omega)
    · simp only [List.mem_cons, List.not_mem_nil, or_false] at hb
      rcases hb with rfl | rfl | rfl | rfl <;> exact hbyte _ _ (by decide) (by omega)

/-- The bytes of a longer character are no ASCII characters. -/
theorem not_isAscii_of_mem_encode {ch : Char} (h : ¬IsAscii ch) {b : UInt8}
    (hb : b ∈ String.utf8EncodeChar ch) : ¬IsAscii (charOfByte b) := by
  have hhigh := le_toNat_of_mem_encode h hb
  have hvalid : b.toNat.isValidChar := Or.inl (Nat.lt_trans b.toNat_lt (by decide))
  have hnat : (charOfByte b).toNat = b.toNat := by
    rw [charOfByte, Char.ofNat, dif_pos hvalid]
    rfl
  rw [IsAscii, hnat]
  omega

/-- A longer character is none of the marks. -/
theorem beq_eq_false_of_not_isAscii {ch mark : Char} (h : ¬IsAscii ch) (hmark : IsAscii mark) :
    (ch == mark) = false := by
  rw [beq_eq_false_iff_ne]
  rintro rfl
  exact h hmark

/-- A test that treats all characters of several bytes alike. -/
def Blind (p : Char → Bool) : Prop :=
  ∃ answer, ∀ ch, ¬IsAscii ch → p ch = answer

/-- Such a test gives on every byte of a character what it gives on the character. -/
theorem Blind.test_byte {p : Char → Bool} (hp : Blind p) {ch : Char} {b : UInt8}
    (hb : b ∈ String.utf8EncodeChar ch) : p (charOfByte b) = p ch := by
  by_cases hch : IsAscii ch
  · obtain ⟨d, hd, hchar⟩ := exists_encode_of_isAscii hch
    rw [hd, List.mem_singleton] at hb
    rw [hb, hchar]
  · obtain ⟨answer, hanswer⟩ := hp
    rw [hanswer _ (not_isAscii_of_mem_encode hch hb), hanswer ch hch]

/-- A test for a mark does not see longer characters. -/
theorem blind_beq {mark : Char} (hmark : IsAscii mark) : Blind (· == mark) :=
  ⟨false, fun _ hch => beq_eq_false_of_not_isAscii hch hmark⟩

/-- Nor does its negation. -/
theorem Blind.not {p : Char → Bool} (hp : Blind p) : Blind fun ch => !p ch := by
  obtain ⟨answer, hanswer⟩ := hp
  exact ⟨!answer, fun ch hch => congrArg Bool.not (hanswer ch hch)⟩

/-- Nor a choice of two. -/
theorem Blind.or {p q : Char → Bool} (hp : Blind p) (hq : Blind q) :
    Blind fun ch => p ch || q ch := by
  obtain ⟨answer, hanswer⟩ := hp
  obtain ⟨answer', hanswer'⟩ := hq
  exact ⟨answer || answer', fun ch hch => congrArg₂ Bool.or (hanswer ch hch) (hanswer' ch hch)⟩

/-- The last byte of a character. -/
def lastByte? (ch : Char) : Option UInt8 :=
  (String.utf8EncodeChar ch).getLast?

/-- A character has a last byte. -/
theorem lastByte?_isSome (ch : Char) : (lastByte? ch).isSome = true := by
  rw [lastByte?, List.getLast?_isSome]
  exact String.utf8EncodeChar_ne_nil

/-- An ASCII character in front of a text is one byte in front of the bytes of the text. -/
theorem exists_bytes_cons {ch : Char} (h : IsAscii ch) :
    ∃ b, charOfByte b = ch ∧ lastByte? ch = some b ∧
      ∀ cs, Chars.bytes (ch :: cs) = b :: Chars.bytes cs := by
  obtain ⟨b, hb, hchar⟩ := exists_encode_of_isAscii h
  refine ⟨b, hchar, by rw [lastByte?, hb]; rfl, fun cs => ?_⟩
  rw [Chars.bytes_cons, hb, List.singleton_append]

/-- Any character in front of a text starts with one of its bytes. -/
theorem exists_first_byte (ch : Char) :
    ∃ b bs, String.utf8EncodeChar ch = b :: bs ∧ b ∈ String.utf8EncodeChar ch ∧
      ∀ cs, Chars.bytes (ch :: cs) = b :: (bs ++ Chars.bytes cs) := by
  obtain ⟨b, bs, hbytes⟩ := List.exists_cons_of_ne_nil (@String.utf8EncodeChar_ne_nil ch)
  refine ⟨b, bs, hbytes, hbytes ▸ List.mem_cons_self, fun cs => ?_⟩
  rw [Chars.bytes_cons, hbytes, List.cons_append]

/-- There are no more characters than bytes. -/
theorem Chars.length_le_bytes (cs : List Char) : cs.length ≤ (Chars.bytes cs).length := by
  induction cs with
  | nil => exact Nat.le_refl 0
  | cons ch cs ih =>
    have hpos := ch.utf8Size_pos
    rw [bytes_cons, List.length_append, String.length_utf8EncodeChar, List.length_cons]
    omega

/-- A place of a cursor, seen in bytes. -/
def Cursor.bytes (c : Cursor) : BytePlace :=
  ⟨Chars.bytes c.rest, c.pos, c.prev.bind lastByte?⟩

/-! ## Scans -/

section Scan

variable {α : Type} (scan : List UInt8 → Nat → Option UInt8 → α)

/-- A scan that goes on behind each of some bytes goes on behind all of them. -/
theorem scan_append {l : List UInt8}
    (hscan : ∀ b ∈ l, ∀ bs pos prev, scan (b :: bs) pos prev = scan bs (pos + 1) (some b))
    (bs : List UInt8) (pos : Nat) (prev : Option UInt8) :
    scan (l ++ bs) pos prev = scan bs (pos + l.length) (l.getLast?.or prev) := by
  induction l generalizing pos prev with
  | nil => rfl
  | cons b l ih =>
    obtain ⟨hb, hl⟩ := List.forall_mem_cons.mp hscan
    rw [List.cons_append, hb, ih hl, List.length_cons, Nat.add_assoc, Nat.add_comm 1,
      List.getLast?_cons]
    cases hlast : l.getLast? with
    | none => rfl
    | some d => rfl

/-- A scan that goes on behind every byte of a character goes on behind the character. -/
theorem scan_char {ch : Char}
    (hscan : ∀ b ∈ String.utf8EncodeChar ch, ∀ bs pos prev,
      scan (b :: bs) pos prev = scan bs (pos + 1) (some b))
    (cs : List Char) (pos : Nat) (prev : Option UInt8) :
    scan (Chars.bytes (ch :: cs)) pos prev =
      scan (Chars.bytes cs) (pos + ch.utf8Size) (lastByte? ch) := by
  rw [Chars.bytes_cons, scan_append scan hscan, String.length_utf8EncodeChar, ← lastByte?]
  obtain ⟨b, hb⟩ := Option.isSome_iff_exists.mp (lastByte?_isSome ch)
  rw [hb]
  rfl

end Scan

namespace Cursor

@[simp] theorem bytes_mk (cs : List Char) (pos : Nat) (prev : Option Char) :
    (Cursor.mk cs pos prev).bytes = ⟨Chars.bytes cs, pos, prev.bind lastByte?⟩ := rfl

@[simp] theorem bytes_pos (c : Cursor) : c.bytes.pos = c.pos := rfl

/-- Bytes of a kind are skipped up to where characters of the kind are. -/
theorem bytes_skipWhileFrom {p : Char → Bool} (hp : Blind p) (cs : List Char) (pos : Nat)
    (prev : Option Char) :
    BytePlace.skipWhileFrom p (Chars.bytes cs) pos (prev.bind lastByte?) =
      (skipWhileFrom p cs pos prev).bytes := by
  -- by induction on the characters; all bytes of one pass the test or its first stops
  induction cs generalizing pos prev with
  | nil => rfl
  | cons ch cs ih =>
    rw [skipWhileFrom]
    by_cases hch : p ch = true
    · have hscan : ∀ b ∈ String.utf8EncodeChar ch, ∀ bs pos prev,
          BytePlace.skipWhileFrom p (b :: bs) pos prev =
            BytePlace.skipWhileFrom p bs (pos + 1) (some b) := by
        intro b hb bs pos prev
        rw [BytePlace.skipWhileFrom, if_pos (by rwa [hp.test_byte hb])]
      rw [if_pos hch, scan_char _ hscan]
      exact ih _ (some ch)
    · obtain ⟨b, bs, -, hb, hcons⟩ := exists_first_byte ch
      rw [if_neg hch, bytes_mk, hcons, BytePlace.skipWhileFrom,
        if_neg (by rwa [hp.test_byte hb])]

/-- A test that is blind to longer characters stops at the same place. -/
theorem bytes_skipWhile {p : Char → Bool} (hp : Blind p) (c : Cursor) :
    c.bytes.skipWhile p = (c.skipWhile p).bytes :=
  bytes_skipWhileFrom hp c.rest c.pos c.prev

/-- A cursor that moves over a class of characters stops in front of another one. -/
theorem stopsAt_skipWhile (p : Char → Bool) (c : Cursor) : StopsAt p (c.skipWhile p).rest := by
  obtain ⟨cs, pos, prev⟩ := c
  obtain ⟨front, rest, rfl, hfront, hrest⟩ := exists_takeWhile p cs
  rw [skipWhile_append front pos prev hfront hrest]
  exact hrest

/-- The end of the bytes is the end of the characters. -/
theorem bytes_toEnd (c : Cursor) : c.bytes.toEnd = c.toEnd.bytes :=
  bytes_skipWhile ⟨true, fun _ _ => rfl⟩ c

/-- Only ASCII characters stand in front of a place at one byte. -/
theorem bytes_next {c : Cursor} (h : ∀ ch ∈ c.head?, IsAscii ch) : c.bytes.next = c.next.bytes := by
  obtain ⟨cs, pos, prev⟩ := c
  cases cs with
  | nil => rfl
  | cons ch cs =>
    have hch : IsAscii ch := h ch rfl
    obtain ⟨b, -, hlast, hcons⟩ := exists_bytes_cons hch
    rw [next_mk, bytes_mk, bytes_mk, hcons, Option.bind_some, hlast, isAscii_iff_utf8Size.mp hch]
    rfl

/-- A mark has as many bytes as characters. -/
theorem bytes_skip {mark : List Char} (hmark : ∀ ch ∈ mark, IsAscii ch) (rest : List Char)
    (pos : Nat) (prev : Option Char) :
    (Cursor.mk (mark ++ rest) pos prev).bytes.skip mark.length =
      ((Cursor.mk (mark ++ rest) pos prev).skip mark.length).bytes := by
  induction mark generalizing pos prev with
  | nil => rfl
  | cons ch mark ih =>
    obtain ⟨hch, hmark⟩ := List.forall_mem_cons.mp hmark
    have hhead : ∀ d ∈ (Cursor.mk (ch :: mark ++ rest) pos prev).head?, IsAscii d := by
      intro d hd
      exact (Option.some.inj hd) ▸ hch
    rw [List.length_cons, BytePlace.skip, bytes_next hhead, List.cons_append, next_mk, ih hmark]
    rfl

/-- The first byte of a text is an ASCII character exactly when the text starts with it. -/
theorem head?_bytes_beq (cs : List Char) {mark : Char} (hmark : IsAscii mark) :
    ((Chars.bytes cs).head?.map charOfByte == some mark) = (cs.head? == some mark) := by
  cases cs with
  | nil => rfl
  | cons ch cs =>
    obtain ⟨b, bs, -, hb, hcons⟩ := exists_first_byte ch
    rw [hcons]
    exact (blind_beq hmark).test_byte hb

/-- The next byte is a mark just when the next character is. -/
theorem bytes_head?_beq (c : Cursor) {mark : Char} (hmark : IsAscii mark) :
    (c.bytes.head? == some mark) = (c.head? == some mark) :=
  head?_bytes_beq c.rest hmark

/-! ## Searching -/

/-- A mark is in front of the bytes just when it is in front of the characters. -/
theorem bytes_isPrefixOf {mark : List Char} (hmark : ∀ ch ∈ mark, IsAscii ch) (cs : List Char) :
    (Chars.bytes mark).isPrefixOf (Chars.bytes cs) = mark.isPrefixOf cs := by
  induction mark generalizing cs with
  | nil => rfl
  | cons m mark ih =>
    obtain ⟨hm, hmark⟩ := List.forall_mem_cons.mp hmark
    obtain ⟨d, hdm, hlast, hdcons⟩ := exists_bytes_cons hm
    cases cs with
    | nil =>
      rw [hdcons]
      rfl
    | cons ch cs =>
      rw [hdcons, List.isPrefixOf]
      -- an ASCII character is one byte, any other one starts with a byte that is none of these
      by_cases hch : IsAscii ch
      · obtain ⟨b, hbch, hlast', hcons⟩ := exists_bytes_cons hch
        rw [hcons, List.isPrefixOf, ih hmark]
        congr 1
        rw [Bool.eq_iff_iff, beq_iff_eq, beq_iff_eq]
        constructor
        · rintro rfl
          rw [← hdm, hbch]
        · rintro rfl
          exact Option.some.inj (hlast.symm.trans hlast')
      · obtain ⟨b, bs, -, hb, hcons⟩ := exists_first_byte ch
        have hbyte : (d == b) = false := by
          rw [beq_eq_false_iff_ne]
          rintro rfl
          exact not_isAscii_of_mem_encode hch hb (hdm ▸ hm)
        have hchar : (m == ch) = false := by
          rw [beq_eq_false_iff_ne]
          rintro rfl
          exact hch hm
        rw [hcons, List.isPrefixOf, hbyte, hchar]
        rfl

/-- The same for a cursor. -/
theorem bytes_sees {mark : List Char} (hmark : ∀ ch ∈ mark, IsAscii ch) (c : Cursor) :
    c.bytes.sees mark = c.sees mark :=
  bytes_isPrefixOf hmark c.rest

/-- A mark is found at the same place. -/
theorem bytes_seekFrom {mark : List Char} (hmark : ∀ ch ∈ mark, IsAscii ch) (hne : mark ≠ [])
    (cs : List Char) (pos : Nat) (prev : Option Char) :
    BytePlace.seekFrom (Chars.bytes mark) (Chars.bytes cs) pos (prev.bind lastByte?) =
      (seekFrom mark cs pos prev).map Cursor.bytes := by
  obtain ⟨m, marks, rfl⟩ := List.exists_cons_of_ne_nil hne
  obtain ⟨d, hdm, -, hdcons⟩ := exists_bytes_cons (hmark m List.mem_cons_self)
  induction cs generalizing pos prev with
  | nil => rfl
  | cons ch cs ih =>
    rw [seekFrom]
    by_cases hstarts : (m :: marks).isPrefixOf (ch :: cs) = true
    · obtain ⟨b, bs, -, -, hcons⟩ := exists_first_byte ch
      rw [if_pos hstarts, Option.map_some, bytes_mk, hcons, BytePlace.seekFrom, if_pos]
      rw [← hcons, bytes_isPrefixOf hmark, hstarts]
    · rw [if_neg hstarts]
      by_cases hch : IsAscii ch
      · obtain ⟨b, -, hlast, hcons⟩ := exists_bytes_cons hch
        rw [← bytes_isPrefixOf hmark, hcons] at hstarts
        rw [hcons, BytePlace.seekFrom, if_neg hstarts, ← ih, isAscii_iff_utf8Size.mp hch,
          Option.bind_some, hlast]
      · -- no byte of a longer character starts a mark of ASCII characters
        have hscan : ∀ b ∈ String.utf8EncodeChar ch, ∀ bs pos prev,
            BytePlace.seekFrom (Chars.bytes (m :: marks)) (b :: bs) pos prev =
              BytePlace.seekFrom (Chars.bytes (m :: marks)) bs (pos + 1) (some b) := by
          intro b hb bs pos prev
          have hbyte : (d == b) = false := by
            rw [beq_eq_false_iff_ne]
            rintro rfl
            exact not_isAscii_of_mem_encode hch hb (hdm ▸ hmark m List.mem_cons_self)
          rw [BytePlace.seekFrom, if_neg]
          rw [hdcons, List.isPrefixOf, hbyte]
          exact Bool.false_ne_true
        rw [scan_char _ hscan, ← ih]
        rfl

/-- The same for a cursor. -/
theorem bytes_seek? {mark : List Char} (hmark : ∀ ch ∈ mark, IsAscii ch) (hne : mark ≠ [])
    (c : Cursor) : c.bytes.seek? mark = (c.seek? mark).map Cursor.bytes :=
  bytes_seekFrom hmark hne c.rest c.pos c.prev

/-! ## Cutting out of a source -/

/-- Ahead less is left. -/
theorem Ahead.length_le {c c' : Cursor} (h : c.Ahead c') : c'.rest.length ≤ c.rest.length := by
  obtain ⟨cs, hcs, -⟩ := h
  rw [hcs, List.length_append]
  exact Nat.le_add_left _ _

/-- A cursor stands in a source. -/
def StandsIn (c : Cursor) (source : String) : Prop :=
  (Cursor.mk source.toList 0 none).Ahead c

/-- Ahead of a cursor of a text is a cursor of the text. -/
theorem StandsIn.ahead {c c' : Cursor} {source : String} (h : c.StandsIn source)
    (hahead : c.Ahead c') : c'.StandsIn source :=
  Ahead.trans h hahead

/-- What lies between two cursors of a source is cut out of it whole. -/
theorem StandsIn.slice? {c c' : Cursor} {source : String} (h : c.StandsIn source)
    (hahead : c.Ahead c') :
    Text.slice? source ⟨c.pos, c'.pos⟩ = some (c.textTo c'.pos) := by
  obtain ⟨front, hsource, hpos⟩ := h
  obtain ⟨cs, hcs, hpos', htext⟩ := hahead.exists_textTo
  dsimp only at hsource hpos
  have hcut := Chars.slice?_append front cs c'.rest
  rw [← hcs, ← hsource] at hcut
  rw [htext, Text.slice?, hpos', hpos, Nat.zero_add, hcut]
  rfl

end Cursor

/-- A text cannot be cut inside a character. -/
theorem Chars.drop?_eq_none_of_inside (front cs : List Char) {ch : Char} {n : Nat} (hpos : 0 < n)
    (hlt : n < ch.utf8Size) : drop? (front ++ ch :: cs) (size front + n) = none := by
  induction front with
  | nil =>
    obtain ⟨k, rfl⟩ := Nat.exists_eq_add_one_of_ne_zero (Nat.ne_of_gt hpos)
    rw [List.nil_append, size_nil, Nat.zero_add, drop?, if_neg (by omega)]
  | cons d front ih =>
    obtain ⟨k, hk, hle, hsub⟩ := exists_size_cons d front
    have hadd : size (d :: front) + n = (k + n) + 1 := by omega
    have hback : k + n + 1 - d.utf8Size = size front + n := by omega
    rw [hadd, List.cons_append, drop?, if_pos (by omega), hback, ih]

/-- A cut that starts inside a character has no answer. -/
theorem Text.slice?_eq_none_of_inside {source : String} {front cs : List Char} {ch : Char}
    (hsource : source.toList = front ++ ch :: cs) {n : Nat} (hpos : 0 < n)
    (hlt : n < ch.utf8Size) (stop : Nat) :
    Text.slice? source ⟨Chars.size front + n, stop⟩ = none := by
  rw [Text.slice?, Chars.slice?, hsource, Chars.drop?_eq_none_of_inside front cs hpos hlt]
  split <;> rfl

end TextHarvest
