import Rollup.Proofs.Decimal.Interval

/-!
The shortest numeral of a sample is rounded back to it. Main statements: a decimal is rounded to a
sample exactly if it has the sign of the sample and lies in its interval, and the grids that are
searched reach from a power of ten above the interval to one finer than the interval is wide.
-/

namespace Rollup

namespace Finite

variable {x : Finite} {num den : Nat}

theorem covers_iff_isNearest (positive : 0 < den) :
    x.interval.Covers (4 * num / den) ↔
      Binary.IsNearest 53 ⟨x.significand, x.exponent⟩ num den := by
  have parts : (0 : ℚ) < den := by exact_mod_cast positive
  rw [Interval.Covers, le_div_iff₀ parts, div_le_iff₀ parts, lt_div_iff₀ parts, div_lt_iff₀ parts]
  norm_cast
  obtain ⟨negative, m, e, small, bounded, normal⟩ := x
  -- over the common factor all bounds are linear in the two numbers `v` and `u`
  have low : (if m = 2 ^ 52 ∧ 0 < e then 4 * m - 1 else 4 * m - 2) * 2 ^ e * den =
      if m = 2 ^ 52 ∧ 0 < e then 4 * (m * (den * 2 ^ e)) - den * 2 ^ e
      else 4 * (m * (den * 2 ^ e)) - 2 * (den * 2 ^ e) := by
    rw [Nat.mul_assoc, Nat.mul_comm (2 ^ e)]
    split
    · rw [Nat.sub_mul, Nat.one_mul, Nat.mul_assoc]
    · rw [Nat.sub_mul, Nat.mul_assoc]
  have high : (4 * m + 2) * 2 ^ e * den = 4 * (m * (den * 2 ^ e)) + 2 * (den * 2 ^ e) := by ring
  have near : Binary.IsNearest 53 ⟨m, e⟩ num den ↔
      2 * (m * (den * 2 ^ e)) ≤ 2 * num + den * 2 ^ e ∧
      2 * num ≤ 2 * (m * (den * 2 ^ e)) + den * 2 ^ e ∧
      (2 * (m * (den * 2 ^ e)) = 2 * num + den * 2 ^ e ∨
        2 * num = 2 * (m * (den * 2 ^ e)) + den * 2 ^ e → m % 2 = 0) ∧
      (m = 2 ^ 52 → 0 < e → 4 * (m * (den * 2 ^ e)) ≤ 4 * num + den * 2 ^ e) := by
    simp only [← Nat.mul_assoc _ m]
    constructor
    · rintro ⟨low, high, tie, power⟩
      exact ⟨low, high, tie, power⟩
    · rintro ⟨low, high, tie, power⟩
      exact ⟨low, high, tie, power⟩
  have unit : 0 < den * 2 ^ e := Nat.mul_pos positive (Nat.two_pow_pos e)
  have wide : m % 2 = 1 → den * 2 ^ e ≤ m * (den * 2 ^ e) := by
    intro odd
    exact Nat.le_mul_of_pos_left _ (by omega)
  simp only [interval, beq_iff_eq, low, high, near]
  clear low high near
  generalize m * (den * 2 ^ e) = v at *
  generalize den * 2 ^ e = u at *
  by_cases even : m % 2 = 0
  · simp only [if_pos even]
    split <;> omega
  · simp only [if_neg even]
    split <;> omega

theorem ofRatio_eq_finite_iff {negative : Bool} (positive : 0 < den) :
    Sample.ofRatio negative num den = .finite x ↔
      x.negative = negative ∧ x.interval.Covers (4 * num / den) := by
  rw [covers_iff_isNearest positive]
  constructor
  · intro rounded
    simp only [Sample.ofRatio] at rounded
    split at rounded
    · cases rounded
      exact ⟨rfl, Binary.isNearest_nearest (by decide) positive⟩
    · cases rounded
  · rintro ⟨rfl, near⟩
    have rounded : Binary.nearest 53 num den = ⟨x.significand, x.exponent⟩ :=
      Binary.nearest_eq (by decide) positive ⟨x.significand_lt, x.normal⟩ near
    have fits : (Binary.nearest 53 num den).exponent ≤ 2045 := by
      rw [rounded]
      exact x.exponent_le
    simp only [Sample.ofRatio]
    rw [dif_pos fits]
    simp only [rounded]

theorem ofDecimal_eq_finite_iff {negative : Bool} {digits : Nat} {exponent : Int} :
    Sample.ofDecimal negative digits exponent = .finite x ↔
      x.negative = negative ∧ x.interval.Covers (Decimal.quarters ⟨digits, exponent⟩) := by
  simp only [Sample.ofDecimal, Decimal.quarters, Interval.one]
  split
  · next whole =>
    obtain ⟨places, rfl⟩ := Int.eq_ofNat_of_zero_le whole
    have value : (4 * (digits * 10 ^ places * Sample.one : Nat) / (1 : Nat) : ℚ) =
        digits * 10 ^ (places : Int) * (4 * Sample.one : Nat) := by
      rw [zpow_natCast]
      push_cast
      ring
    rw [Int.toNat_natCast, ofRatio_eq_finite_iff Nat.one_pos, value]
  · next fraction =>
    obtain ⟨places, rfl⟩ : ∃ places : Nat, exponent = -places := ⟨(-exponent).toNat, by omega⟩
    have value : (4 * (digits * Sample.one : Nat) / (10 ^ places : Nat) : ℚ) =
        digits * 10 ^ (-places : Int) * (4 * Sample.one : Nat) := by
      rw [zpow_neg, zpow_natCast, div_eq_mul_inv]
      push_cast
      ring
    rw [Int.neg_neg, Int.toNat_natCast, ofRatio_eq_finite_iff (Nat.pow_pos (by decide)), value]

end Finite

/-- A ten is worth less than ten thirds of a bit. -/
theorem two_pow_mul_ten_pow_lt {a n b : Nat} (bound : 3 * a + 10 * n < 3 * b) :
    2 ^ a * 10 ^ n < 2 ^ b := by
  apply lt_of_pow_lt_pow_left₀ 3 (Nat.zero_le _)
  calc
    (2 ^ a * 10 ^ n) ^ 3 = 2 ^ (3 * a) * (10 ^ 3) ^ n := by
      rw [Nat.mul_pow, ← Nat.pow_mul, ← Nat.pow_mul, ← Nat.pow_mul, Nat.mul_comm a, Nat.mul_comm n]
    _ ≤ 2 ^ (3 * a) * (2 ^ 10) ^ n :=
      Nat.mul_le_mul_left _ (Nat.pow_le_pow_left (by decide) n)
    _ = 2 ^ (3 * a + 10 * n) := by rw [← Nat.pow_mul, ← Nat.pow_add]
    _ < 2 ^ (3 * b) := Nat.pow_lt_pow_right (by decide) bound
    _ = (2 ^ b) ^ 3 := by rw [← Nat.pow_mul, Nat.mul_comm]

/-- A ten is worth more than ninety-three twenty-eighths of a bit. -/
theorem two_pow_lt_mul_ten_pow {a b n : Nat} (bound : 28 * a < 28 * b + 93 * n) :
    2 ^ a < 2 ^ b * 10 ^ n := by
  apply lt_of_pow_lt_pow_left₀ 28 (Nat.zero_le _)
  calc
    (2 ^ a) ^ 28 = 2 ^ (28 * a) := by rw [← Nat.pow_mul, Nat.mul_comm]
    _ < 2 ^ (28 * b + 93 * n) := Nat.pow_lt_pow_right (by decide) bound
    _ = 2 ^ (28 * b) * (2 ^ 93) ^ n := by rw [← Nat.pow_mul, ← Nat.pow_add]
    _ ≤ 2 ^ (28 * b) * (10 ^ 28) ^ n := Nat.mul_le_mul_left _ (Nat.pow_le_pow_left (by decide) n)
    _ = (2 ^ b * 10 ^ n) ^ 28 := by
      rw [Nat.mul_pow, ← Nat.pow_mul, ← Nat.pow_mul, ← Nat.pow_mul, Nat.mul_comm b, Nat.mul_comm n]

theorem Interval.one_eq : one = 2 ^ 1076 := by decide +kernel

namespace Decimal

variable {exponent : Int} {bits : Nat}

/-- There are `2 ^ 1076` quarters in one, and the bound is one for the powers of two. -/
theorem quarters_lt_two_pow (whole : 0 ≤ exponent → 3 * 1076 + 10 * exponent < 3 * bits)
    (fraction : exponent < 0 → 28 * 1076 + 93 * exponent < 28 * bits) :
    quarters ⟨1, exponent⟩ < 2 ^ bits := by
  simp only [quarters, Nat.cast_one, one_mul]
  rcases Int.eq_nat_or_neg exponent with ⟨places, rfl | rfl⟩
  · have room : 10 ^ places * Interval.one < 2 ^ bits := by
      rw [Nat.mul_comm, Interval.one_eq]
      apply two_pow_mul_ten_pow_lt
      omega
    rw [zpow_natCast]
    exact_mod_cast room
  · have room : Interval.one < 2 ^ bits * 10 ^ places := by
      rw [Interval.one_eq]
      apply two_pow_lt_mul_ten_pow
      omega
    have positive : (0 : ℚ) < 10 ^ places := by positivity
    rw [zpow_neg, zpow_natCast, inv_mul_eq_div, div_lt_iff₀ positive]
    exact_mod_cast room

theorem two_pow_lt_quarters (whole : 0 ≤ exponent → 28 * bits < 28 * 1076 + 93 * exponent)
    (fraction : exponent < 0 → 3 * bits < 3 * 1076 + 10 * exponent) :
    2 ^ bits < quarters ⟨1, exponent⟩ := by
  simp only [quarters, Nat.cast_one, one_mul]
  rcases Int.eq_nat_or_neg exponent with ⟨places, rfl | rfl⟩
  · have room : 2 ^ bits < 10 ^ places * Interval.one := by
      rw [Nat.mul_comm, Interval.one_eq]
      apply two_pow_lt_mul_ten_pow
      omega
    rw [zpow_natCast]
    exact_mod_cast room
  · have room : 2 ^ bits * 10 ^ places < Interval.one := by
      rw [Interval.one_eq]
      apply two_pow_mul_ten_pow_lt
      omega
    have positive : (0 : ℚ) < 10 ^ places := by positivity
    rw [zpow_neg, zpow_natCast, inv_mul_eq_div, lt_div_iff₀ positive]
    exact_mod_cast room

end Decimal

namespace Finite

variable {x : Finite}

theorem isProper_interval (nonzero : x.isZero = false) : x.interval.IsProper := by
  have significand : 0 < x.significand := by
    simp only [isZero, beq_eq_false_iff_ne] at nonzero
    omega
  have step := Nat.two_pow_pos x.exponent
  constructor
  · apply Nat.mul_pos _ step
    split <;> omega
  · apply Nat.mul_lt_mul_of_pos_right _ step
    split <;> omega
  · exact Nat.mul_lt_mul_of_pos_right (by omega) step

/-- The search starts with a power of ten above the interval. -/
theorem high_lt (x : Finite) : x.interval.high < Decimal.quarters ⟨1, x.decade + 1⟩ := by
  have small := x.significand_lt
  have exponent_le := x.exponent_le
  have bits : x.interval.high < 2 ^ (x.exponent + 55) := by
    calc
      x.interval.high = (4 * x.significand + 2) * 2 ^ x.exponent := rfl
      _ < 2 ^ 55 * 2 ^ x.exponent := Nat.mul_lt_mul_of_pos_right (by omega) (Nat.two_pow_pos _)
      _ = 2 ^ (x.exponent + 55) := by rw [Nat.add_comm, Nat.pow_add]
  have power : 2 ^ (x.exponent + 55) < Decimal.quarters ⟨1, x.decade + 1⟩ := by
    apply Decimal.two_pow_lt_quarters
    · simp only [decade]
      omega
    · simp only [decade]
      omega
  exact lt_trans (by exact_mod_cast bits) power

/-- It ends with one that is less than half of the interval. -/
theorem last_grid_fine (x : Finite) :
    x.interval.value + Decimal.quarters ⟨1, x.decade - 23⟩ < x.interval.high := by
  have exponent_le := x.exponent_le
  have half : x.interval.high = x.interval.value + 2 ^ (x.exponent + 1) := by
    simp only [interval]
    ring
  have power : Decimal.quarters ⟨1, x.decade - 23⟩ < 2 ^ (x.exponent + 1) := by
    apply Decimal.quarters_lt_two_pow
    · simp only [decade]
      omega
    · simp only [decade]
      omega
  rw [half]
  push_cast
  linarith

theorem covers_shortest (nonzero : x.isZero = false) :
    x.interval.Covers x.shortest.quarters := by
  have reached : (x.interval.onGrid (x.decade - (23 : Nat))).isSome :=
    Interval.onGrid_isSome (isProper_interval nonzero) x.last_grid_fine
  rw [shortest, nonzero]
  exact Interval.covers_shortestFrom reached

theorem shortest_digits_pos (x : Finite) (nonzero : x.isZero = false) :
    0 < x.shortest.digits := by
  apply Nat.pos_of_ne_zero
  intro none
  have covered := covers_shortest nonzero
  rw [Decimal.quarters, none, Nat.cast_zero, zero_mul, zero_mul] at covered
  exact (isProper_interval nonzero).not_covers_zero covered

/-- The shortest numeral of a sample reads back as the sample, the sign of zero included. -/
theorem ofDecimal_shortest (x : Finite) :
    Sample.ofDecimal x.negative x.shortest.digits x.shortest.exponent = .finite x := by
  rw [ofDecimal_eq_finite_iff]
  refine ⟨rfl, ?_⟩
  cases zero : x.isZero with
  | false => exact covers_shortest zero
  | true =>
    have significand : x.significand = 0 := by simpa [isZero] using zero
    rw [shortest, if_pos zero, Decimal.quarters_zero]
    simp [Interval.Covers, interval, significand]

end Finite

end Rollup
