import Mathlib.Data.Nat.Init
import Rollup.Bytes
import Rollup.Sample.Rounding

/-!
Reading what is held in a fixed count of bytes. Main statement: a number that fits its bytes is
read from them again, in either order of the bytes.
-/

namespace Rollup.Bytes

/-- The number that bytes hold, the least significant first. -/
def ofLittleEndian : Bytes → Nat
  | [] => 0
  | b :: rest => b.toNat + 256 * ofLittleEndian rest

def ofBigEndian (bytes : Bytes) : Nat := ofLittleEndian bytes.reverse

/-- The first bytes, if there are so many, and what follows them. -/
def take? (count : Nat) (bytes : Bytes) : Option (Bytes × Bytes) :=
  if count ≤ bytes.length then some (bytes.take count, bytes.drop count) else none

/-- A number in a fixed count of bytes, and what follows it. -/
def readNat (width : Nat) (bytes : Bytes) : Option (Nat × Bytes) :=
  (take? width bytes).map fun (first, rest) => (ofLittleEndian first, rest)

theorem length_littleEndian (width n : Nat) : (littleEndian width n).length = width := by
  induction width generalizing n with
  | zero => rfl
  | succ width ih => rw [littleEndian, List.length_cons, ih]

theorem ofLittleEndian_littleEndian {width n : Nat} (small : n < 256 ^ width) :
    ofLittleEndian (littleEndian width n) = n := by
  induction width generalizing n with
  | zero =>
    rw [Nat.pow_zero] at small
    simp only [littleEndian, ofLittleEndian]
    omega
  | succ width ih =>
    have rest : n / 256 < 256 ^ width := by
      rw [Nat.pow_succ] at small
      omega
    rw [littleEndian, ofLittleEndian, ih rest, UInt8.toNat_ofNat']
    omega

theorem ofBigEndian_bigEndian {width n : Nat} (small : n < 256 ^ width) :
    ofBigEndian (bigEndian width n) = n := by
  rw [ofBigEndian, bigEndian, List.reverse_reverse, ofLittleEndian_littleEndian small]

theorem length_bigEndian (width n : Nat) : (bigEndian width n).length = width := by
  rw [bigEndian, List.length_reverse, length_littleEndian]

theorem take?_append {first : Bytes} {count : Nat} (length : first.length = count) (rest : Bytes) :
    take? count (first ++ rest) = some (first, rest) := by
  subst length
  simp [take?]

theorem readNat_append {width n : Nat} (small : n < 256 ^ width) (rest : Bytes) :
    readNat width (littleEndian width n ++ rest) = some (n, rest) := by
  simp only [readNat, take?_append (length_littleEndian width n), Option.map_some,
    ofLittleEndian_littleEndian small]

/-- The two's complement of an integer is read as the integer. -/
theorem bmod_emod {bits : Nat} {n : Int} (low : -(2 ^ bits) ≤ n) (high : n < 2 ^ bits) :
    Int.bmod ((n % 2 ^ (bits + 1)).toNat : Int) (2 ^ (bits + 1)) = n := by
  have whole : (2 : Int) ^ (bits + 1) = (2 ^ (bits + 1) : Nat) := by push_cast; rfl
  have half : (2 : Int) ^ (bits + 1) = 2 * 2 ^ bits := by rw [Int.pow_succ, Int.mul_comm]
  have positive : (0 : Int) < 2 ^ bits := Int.pow_pos (by decide)
  rw [Int.toNat_of_nonneg (Int.emod_nonneg _ (by omega)), whole, Int.emod_bmod]
  apply Int.bmod_eq_of_le
  · omega
  · omega

end Rollup.Bytes
