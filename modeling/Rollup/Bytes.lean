import Rollup.Text.Basic

/-!
Sequences of bytes: numbers in a fixed count of bytes, and the UTF-8 form of text.
-/

namespace Rollup

abbrev Bytes := List UInt8

namespace Bytes

/-- The lowest `width` bytes of a number, the least significant first. -/
def littleEndian : Nat → Nat → Bytes
  | 0, _ => []
  | width + 1, n => UInt8.ofNat n :: littleEndian width (n / 256)

/-- The lowest `width` bytes of a number, the most significant first. -/
def bigEndian (width n : Nat) : Bytes := (littleEndian width n).reverse

/-- Text whose characters are all below 256, one byte each. -/
def ofChars (s : List Char) : Bytes := s.map fun c => UInt8.ofNat c.toNat

/-- Halves of pairs have no UTF-8 form; they are given the bytes that their numbers would have. -/
def utf8Point : CodePoint → Bytes
  | .scalar c => String.utf8EncodeChar c
  | .half index => [0xed, UInt8.ofNat (0xa0 + index / 0x40), UInt8.ofNat (0x80 + index % 0x40)]

def utf8 (s : Text) : Bytes := s.flatMap utf8Point

end Bytes

end Rollup
