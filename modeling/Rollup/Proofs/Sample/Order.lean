import Rollup.Proofs.Sample.Whole

/-!
Samples as numbers. Main statements: every number has one sample, but for the two signs of zero, so
the order tells samples apart; a sample is the same number when it is added to zero or divided by
one.
-/

namespace Rollup

namespace Finite

variable {x y : Finite}

theorem natAbs_units (x : Finite) : x.units.natAbs = x.magnitude := by
  cases sign : x.negative <;> simp [units, sign]

theorem negative_of_units (nonzero : x.units ≠ 0) : decide (x.units < 0) = x.negative := by
  cases sign : x.negative with
  | false => simp [units, sign]
  | true =>
    simp only [units, sign, if_true] at nonzero ⊢
    exact decide_eq_true (by omega)

theorem magnitude_lt (x : Finite) : x.magnitude < 2 ^ 2098 := by
  have grid {top : Nat} (le : x.exponent ≤ top) : x.magnitude < 2 ^ 53 * 2 ^ top := by
    calc
      x.magnitude ≤ x.significand * 2 ^ top :=
        Nat.mul_le_mul_left _ (Nat.pow_le_pow_right (by decide) le)
      _ < 2 ^ 53 * 2 ^ top := Nat.mul_lt_mul_of_pos_right x.significand_lt (Nat.two_pow_pos top)
  have limit : 2 ^ 53 * 2 ^ 2045 = 2 ^ 2098 := by decide +kernel
  exact Nat.lt_of_lt_of_eq (grid x.exponent_le) limit

end Finite

namespace Sample

variable {x y : Sample}

/-- A sample is what its own value is rounded to. -/
theorem ofRatio_magnitude (x : Finite) : ofRatio x.negative x.magnitude 1 = .finite x := by
  have near : Binary.IsNearest 53 ⟨x.significand, x.exponent⟩ x.magnitude 1 := by
    have value : x.significand * (1 * 2 ^ x.exponent) = x.magnitude := by
      rw [Nat.one_mul, Finite.magnitude]
    have unit := Nat.two_pow_pos x.exponent
    constructor
    all_goals simp only [Nat.mul_assoc, value]
    all_goals omega
  have rounded : Binary.nearest 53 x.magnitude 1 = ⟨x.significand, x.exponent⟩ :=
    Binary.nearest_eq (by decide) Nat.one_pos ⟨x.significand_lt, x.normal⟩ near
  have fits : (Binary.nearest 53 x.magnitude 1).exponent ≤ 2045 := by
    rw [rounded]
    exact x.exponent_le
  rw [ofRatio, dif_pos fits]
  simp only [rounded]

theorem finite_eq {x y : Finite} (sign : x.negative = y.negative)
    (value : x.magnitude = y.magnitude) : Sample.finite x = .finite y := by
  rw [← ofRatio_magnitude x, ← ofRatio_magnitude y, sign, value]

theorem finite_of_units_zero {x : Finite} (none : x.units = 0) :
    Sample.finite x = .finite (.zero x.negative) := by
  have sign : x.negative = (Finite.zero x.negative).negative := rfl
  have nothing : (Finite.zero x.negative).magnitude = 0 := rfl
  apply finite_eq sign
  rw [← x.natAbs_units, none, nothing, Int.natAbs_zero]

/-- The units of a finite sample lie between those of the infinities. -/
theorem key_bounds (x : Finite) : -(2 ^ 2098) < x.units ∧ x.units < 2 ^ 2098 := by
  have within {top : Nat} (below : x.magnitude < 2 ^ top) : (x.units.natAbs : Int) < 2 ^ top := by
    rw [x.natAbs_units]
    exact_mod_cast below
  have bound := within x.magnitude_lt
  generalize (2 : Int) ^ 2098 = limit at bound ⊢
  omega

/-- The order tells the samples apart that are present, but for the two zeros. -/
theorem eq_of_key (first : x.isMissing = false) (second : y.isMissing = false)
    (same : x.key = y.key) :
    x = y ∨ ∃ negative, x = .finite (.zero negative) ∧ y = .finite (.zero !negative) := by
  have limit : (0 : Int) < 2 ^ 2098 := Int.pow_pos (by decide)
  cases x with
  | missing => cases first
  | infinite a =>
    cases y with
    | missing => cases second
    | infinite b =>
      left
      cases a <;> cases b <;> simp only [key, Bool.false_eq_true, if_true, if_false] at same ⊢
      all_goals omega
    | finite y =>
      have bounds := key_bounds y
      cases a <;> simp only [key, Bool.false_eq_true, if_true, if_false] at same
      all_goals omega
  | finite x =>
    cases y with
    | missing => cases second
    | infinite b =>
      have bounds := key_bounds x
      cases b <;> simp only [key, Bool.false_eq_true, if_true, if_false] at same
      all_goals omega
    | finite y =>
      simp only [key] at same
      by_cases none : x.units = 0
      · have none' : y.units = 0 := same ▸ none
        rw [finite_of_units_zero none, finite_of_units_zero none']
        by_cases sign : x.negative = y.negative
        · exact .inl (by rw [sign])
        · exact .inr ⟨x.negative, rfl, by rw [Bool.eq_not_of_ne (Ne.symm sign)]⟩
      · left
        apply finite_eq
        · rw [← Finite.negative_of_units none, ← Finite.negative_of_units (same ▸ none), same]
        · rw [← x.natAbs_units, ← y.natAbs_units, same]

theorem ofUnits_units {x : Finite} (nonzero : x.units ≠ 0) : ofUnits x.units = .finite x := by
  rw [ofUnits, x.natAbs_units, Finite.negative_of_units nonzero, ofRatio_magnitude]

/-- A sample added to zero is the same number, without the sign of a zero. -/
theorem zero_add (present : x.isMissing = false) :
    (add .zero x).isMissing = false ∧ (add .zero x).key = x.key := by
  cases x with
  | missing => cases present
  | infinite negative => exact ⟨rfl, rfl⟩
  | finite x =>
    have zero : (Finite.zero false).units = 0 := rfl
    rw [Sample.zero, add, zero, Int.zero_add]
    by_cases none : x.units = 0
    · rw [if_pos none]
      exact ⟨rfl, by simp only [key, none]; rfl⟩
    · rw [if_neg none, ofUnits_units none]
      exact ⟨rfl, rfl⟩

theorem div_one (x : Sample) : div x (ofNat 1) = x := by
  obtain ⟨unit, one_eq, sign, value⟩ := ofRatio_whole (k := 1) (by decide) false
  rw [Nat.one_mul] at value
  have nonzero : unit.isZero = false := by
    cases zero : unit.isZero with
    | false => rfl
    | true =>
      have none : unit.magnitude = 0 := by
        rw [Finite.magnitude, eq_of_beq zero, Nat.zero_mul]
      have some_unit := one_pos
      omega
  rw [ofNat, one_eq]
  cases x with
  | missing => rfl
  | infinite negative => rw [div, sign, Bool.bne_false]
  | finite x =>
    have exact := @ofRatio_mul_right x.magnitude 1 one one_pos x.negative
    rw [Nat.one_mul] at exact
    rw [div, nonzero, if_neg Bool.false_ne_true, sign, value, Bool.bne_false, exact,
      ofRatio_magnitude]

end Sample

end Rollup
