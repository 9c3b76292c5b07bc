import TextHarvest.Text.Quoted

/-!
# Digests of texts

What the two digests have in common: a text is taken as bytes, padded to blocks of 64 bytes with its
length at the end, read as 32-bit words, and the digest is written in hexadecimal digits.
-/

namespace TextHarvest.Digest

/-- The bytes of a text. -/
def bytes (s : String) : List UInt8 :=
  s.toUTF8.toList

/-- Bytes followed by a one bit and zeros, up to eight bytes short of a block. -/
def padded (bs : List UInt8) : List UInt8 :=
  bs ++ 0x80 :: List.replicate ((119 - bs.length % 64) % 64) 0

/-- The eight bytes of a number, lowest first. -/
def lengthBytes (n : Nat) : List UInt8 :=
  (List.range 8).map fun i => (n / Nat.pow 256 i % 256).toUInt8

/-- Cuts a list into pieces of a size, `fuel` at most. -/
def pieces {α : Type} (size : Nat) : Nat → List α → List (List α)
  | 0, _ => []
  | fuel + 1, l => if l.isEmpty then [] else l.take size :: pieces size fuel (l.drop size)

/-- The word of four bytes, highest first. -/
def bigWord (bs : List UInt8) : UInt32 :=
  bs.foldl (fun w b => w * 256 + b.toUInt32) 0

/-- The word of four bytes, lowest first. -/
def littleWord (bs : List UInt8) : UInt32 :=
  bigWord bs.reverse

/-- Turns the bits of a word to the left. -/
def rotateLeft (w : UInt32) (n : UInt32) : UInt32 :=
  (w <<< n) ||| (w >>> (32 - n))

/-- Turns the bits of a word to the right. -/
def rotateRight (w : UInt32) (n : UInt32) : UInt32 :=
  (w >>> n) ||| (w <<< (32 - n))

/-- The two hexadecimal digits of a byte. -/
def hexByte (n : Nat) : List Char :=
  [Text.hexDigit (n / 16 % 16), Text.hexDigit (n % 16)]

/-- The bytes of a word, highest first. -/
def wordBytes (w : UInt32) : List Nat :=
  [w.toNat / 0x1000000, w.toNat / 0x10000 % 256, w.toNat / 256 % 256, w.toNat % 256]

end TextHarvest.Digest
