import Rollup.Sample.Basic

/-!
Arithmetic on samples: each operation takes the exact result and rounds it once, to the nearest
sample, ties to even.
-/

namespace Rollup.Sample

/-- An exact sum of zero is minus zero only if both terms are. -/
def add : Sample → Sample → Sample
  | missing, _ => missing
  | _, missing => missing
  | infinite a, infinite b => if a = b then infinite a else missing
  | infinite a, finite _ => infinite a
  | finite _, infinite b => infinite b
  | finite x, finite y =>
    if x.units + y.units = 0 then finite (.zero (x.negative && y.negative))
    else ofUnits (x.units + y.units)

def sub (x y : Sample) : Sample := add x (negate y)

def mul : Sample → Sample → Sample
  | missing, _ => missing
  | _, missing => missing
  | infinite a, infinite b => infinite (a != b)
  | infinite a, finite y => if y.isZero then missing else infinite (a != y.negative)
  | finite x, infinite b => if x.isZero then missing else infinite (x.negative != b)
  | finite x, finite y => ofRatio (x.negative != y.negative) (x.magnitude * y.magnitude) one

def div : Sample → Sample → Sample
  | missing, _ => missing
  | _, missing => missing
  | infinite _, infinite _ => missing
  | infinite a, finite y => infinite (a != y.negative)
  | finite x, infinite b => finite (.zero (x.negative != b))
  | finite x, finite y =>
    if y.isZero then if x.isZero then missing else infinite (x.negative != y.negative)
    else ofRatio (x.negative != y.negative) (x.magnitude * one) y.magnitude

/-- The largest `r` with `r * r ≤ n`, for `n < 4 ^ pairs`. -/
def floorSqrt : Nat → Nat → Nat
  | 0, _ => 0
  | pairs + 1, n =>
    let r := 2 * floorSqrt pairs (n / 4)
    if (r + 1) * (r + 1) ≤ n then r + 1 else r

theorem floorSqrt_bounds {pairs n : Nat} (small : n < 4 ^ pairs) :
    floorSqrt pairs n * floorSqrt pairs n ≤ n ∧
      n < (floorSqrt pairs n + 1) * (floorSqrt pairs n + 1) := by
  induction pairs generalizing n with
  | zero => simp_all [floorSqrt]
  | succ pairs ih =>
    have quarter := ih (n := n / 4) (by rw [Nat.pow_succ] at small; omega)
    simp only [floorSqrt]
    generalize floorSqrt pairs (n / 4) = r at quarter ⊢
    have below : 2 * r * (2 * r) = 4 * (r * r) := by rw [Nat.mul_mul_mul_comm]
    have above : (2 * r + 1 + 1) * (2 * r + 1 + 1) = 4 * ((r + 1) * (r + 1)) := by
      rw [show 2 * r + 1 + 1 = 2 * (r + 1) by omega, Nat.mul_mul_mul_comm]
    split
    · omega
    · omega

/-- Rounded from the floor of the root and whether the root lies above it; the floor has far more
digits than a sample, so a half occurs only at an exact root. -/
def sqrt : Sample → Sample
  | missing => missing
  | infinite negative => if negative then missing else infinite false
  | finite x =>
    if x.isZero then finite x
    else if x.negative then missing
    else
      let n := x.magnitude * one
      let r := floorSqrt (n.log2 / 2 + 1) n
      ofRatio false (if r * r = n then 2 * r else 2 * r + 1) 2

/-- The larger of two samples, the first if they are equal. -/
def max (x y : Sample) : Sample := if x.key < y.key then y else x

/-- The smaller of two samples, the first if they are equal. -/
def min (x y : Sample) : Sample := if y.key < x.key then y else x

end Rollup.Sample
