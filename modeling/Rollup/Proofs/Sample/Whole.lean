import Rollup.Proofs.Sample.Rounding
import Rollup.Sample.Arithmetic

/-!
Samples that are integers. Main statement: up to `2 ^ 53` in magnitude they are added exactly.
-/

namespace Rollup

/-- The integer that a sample is, if it is one. -/
def Sample.toInt? : Sample → Option Int
  | .finite x => if x.units % one = 0 then some (x.units / one) else none
  | _ => none

namespace Sample

variable {m n : Int}

theorem toInt?_finite_iff {x : Finite} :
    (Sample.finite x).toInt? = some n ↔ x.units = n * one := by
  have some_unit : (one : Int) ≠ 0 := by exact_mod_cast Nat.pos_iff_ne_zero.mp one_pos
  rw [toInt?]
  constructor
  · intro whole
    split at whole
    · next divides =>
      cases whole
      exact (Int.ediv_mul_cancel (Int.dvd_of_emod_eq_zero divides)).symm
    · cases whole
  · intro units
    rw [units, Int.mul_emod_left, if_pos rfl, Int.mul_ediv_cancel _ some_unit]

theorem exists_finite_of_toInt? {x : Sample} (whole : x.toInt? = some n) :
    ∃ y, x = .finite y ∧ y.units = n * one := by
  cases x with
  | missing | infinite => cases whole
  | finite y => exact ⟨y, rfl, toInt?_finite_iff.mp whole⟩

theorem exists_finite_of_fits {num den : Nat}
    (fits : (Binary.nearest 53 num den).exponent ≤ 2045) (negative : Bool) :
    ∃ x, ofRatio negative num den = .finite x ∧ x.negative = negative := by
  rw [ofRatio, dif_pos fits]
  exact ⟨_, rfl, rfl⟩

/-- A whole number of at most 53 digits is not rounded. -/
theorem ofRatio_whole {k : Nat} (small : k ≤ 2 ^ 53) (negative : Bool) :
    ∃ x, ofRatio negative (k * one) 1 = .finite x ∧ x.negative = negative ∧
      x.magnitude = k * one := by
  obtain ⟨b, form, value⟩ := exists_isNormal small
  have fits : (Binary.nearest 53 (k * one) 1).exponent ≤ 2045 := by
    rw [Binary.exponent_nearest_le_iff (by decide) Nat.one_pos]
    have room : 2 * (2 ^ 53 * one) < (2 ^ (53 + 1) - 1) * (1 * 2 ^ 2045) := by decide +kernel
    have scaled : k * one ≤ 2 ^ 53 * one := Nat.mul_le_mul_right one small
    exact Nat.lt_of_le_of_lt (Nat.mul_le_mul_left 2 scaled) room
  have exact := Binary.value_nearest (by decide) form
  rw [value] at exact
  obtain ⟨x, rounded, sign⟩ := exists_finite_of_fits fits negative
  exact ⟨x, rounded, sign, (magnitude_of_ofRatio rounded).trans exact⟩

theorem toInt?_ofUnits (small : n.natAbs ≤ 2 ^ 53) : (ofUnits (n * one)).toInt? = some n := by
  obtain ⟨x, rounded, sign, magnitude⟩ := ofRatio_whole small (n * one < 0)
  have units : (n * one).natAbs = n.natAbs * one := by rw [Int.natAbs_mul, Int.natAbs_natCast]
  rw [ofUnits, units, rounded, toInt?_finite_iff, Finite.units, sign, magnitude, ← units]
  by_cases below : n * one < 0
  · rw [if_pos (decide_eq_true below)]
    omega
  · rw [decide_eq_false below, if_neg Bool.false_ne_true]
    omega

theorem toInt?_zero (negative : Bool) : (Sample.finite (.zero negative)).toInt? = some 0 := by
  rw [toInt?_finite_iff, Int.zero_mul]
  cases negative <;> rfl

theorem toInt?_ofNat {k : Nat} (small : k ≤ 2 ^ 53) : (ofNat k).toInt? = some (k : Int) := by
  obtain ⟨x, rounded, sign, magnitude⟩ := ofRatio_whole small false
  rw [ofNat, rounded, toInt?_finite_iff, Finite.units, sign, magnitude]
  rfl

theorem toInt?_add {x y : Sample} (first : x.toInt? = some m) (second : y.toInt? = some n)
    (small : (m + n).natAbs ≤ 2 ^ 53) : (add x y).toInt? = some (m + n) := by
  obtain ⟨x, rfl, left⟩ := exists_finite_of_toInt? first
  obtain ⟨y, rfl, right⟩ := exists_finite_of_toInt? second
  have units : x.units + y.units = (m + n) * one := by rw [left, right, Int.add_mul]
  rw [add, units]
  split
  · next none =>
    have zero : m + n = 0 := by
      rcases Int.mul_eq_zero.mp none with zero | unit
      · exact zero
      · exact absurd unit (by exact_mod_cast Nat.pos_iff_ne_zero.mp one_pos)
    rw [zero]
    exact toInt?_zero _
  · exact toInt?_ofUnits small

end Sample

end Rollup
