import TextHarvest.Text.Offset

/-!
# Bytes

A text as the bytes of its UTF-8 form. A place between two bytes moves forward byte by byte, and
may come to lie inside a character; a text can be cut there no more.
-/

namespace TextHarvest

namespace Chars

/-- The bytes of some characters. -/
def bytes (cs : List Char) : List UInt8 :=
  cs.flatMap String.utf8EncodeChar

@[simp] theorem bytes_nil : bytes [] = [] := rfl

@[simp] theorem bytes_cons (ch : Char) (cs : List Char) :
    bytes (ch :: cs) = String.utf8EncodeChar ch ++ bytes cs :=
  rfl

end Chars

/-- The character with the number of a byte. Up to 127 it is the one that the byte stands for. -/
def charOfByte (b : UInt8) : Char :=
  Char.ofNat b.toNat

/-- A place between two bytes. -/
structure BytePlace where
  rest : List UInt8
  pos : Nat := 0
  prev : Option UInt8 := none

namespace BytePlace

/-- The byte at a place, as a character. -/
def head? (c : BytePlace) : Option Char :=
  c.rest.head?.map charOfByte

/-- The byte before a place, as a character. -/
def last? (c : BytePlace) : Option Char :=
  c.prev.map charOfByte

/-- Moves over one byte, if there is one. -/
def next (c : BytePlace) : BytePlace :=
  match c.rest with
  | [] => c
  | b :: bs => ⟨bs, c.pos + 1, some b⟩

/-- Moves over a number of bytes. -/
def skip (c : BytePlace) : Nat → BytePlace
  | 0 => c
  | n + 1 => c.next.skip n

/-- Moves over the bytes of `rest` that pass a test. -/
def skipWhileFrom (p : Char → Bool) : List UInt8 → Nat → Option UInt8 → BytePlace
  | [], pos, prev => ⟨[], pos, prev⟩
  | b :: bs, pos, prev =>
    if p (charOfByte b) then skipWhileFrom p bs (pos + 1) (some b) else ⟨b :: bs, pos, prev⟩

/-- Moves over the bytes that pass a test. -/
def skipWhile (c : BytePlace) (p : Char → Bool) : BytePlace :=
  skipWhileFrom p c.rest c.pos c.prev

/-- Whether the bytes of a text stand at a place. -/
def sees (c : BytePlace) (mark : List Char) : Bool :=
  (Chars.bytes mark).isPrefixOf c.rest

/-- The first place in `rest` where some bytes stand. -/
def seekFrom (mark : List UInt8) : List UInt8 → Nat → Option UInt8 → Option BytePlace
  | [], _, _ => none
  | b :: bs, pos, prev =>
    if mark.isPrefixOf (b :: bs) then some ⟨b :: bs, pos, prev⟩
    else seekFrom mark bs (pos + 1) (some b)

/-- The first place from here on where the bytes of a text that is not empty stand. -/
def seek? (c : BytePlace) (mark : List Char) : Option BytePlace :=
  seekFrom (Chars.bytes mark) c.rest c.pos c.prev

/-- The end of the text. -/
def toEnd (c : BytePlace) : BytePlace :=
  c.skipWhile fun _ => true

/-- The start of a text. -/
def ofText (text : String) : BytePlace :=
  ⟨Chars.bytes text.toList, 0, none⟩

end BytePlace

end TextHarvest
