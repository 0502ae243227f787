import Mathlib.Algebra.Order.Field.Power
import Mathlib.Algebra.Order.Floor.Semiring
import Mathlib.Data.Rat.Floor
import Rollup.Decimal.Shortest
import Rollup.Proofs.Sample.Rounding

/-!
Intervals and the grids of multiples of a power of ten. Main statements: a grid has a point in an
interval only if one of its two points around the value lies there, and it has one if it is finer
than the upper half of the interval.
-/

namespace Rollup

namespace Decimal

/-- The value of a decimal, in quarters of `2 ^ -1074`. -/
def quarters (d : Decimal) : ℚ := d.digits * 10 ^ d.exponent * Interval.one

theorem quarters_shift (digits places : Nat) (exponent : Int) :
    quarters ⟨digits * 10 ^ places, exponent⟩ = quarters ⟨digits, exponent + places⟩ := by
  have ten : (10 : ℚ) ≠ 0 := by norm_num
  simp only [quarters]
  rw [zpow_add₀ ten, zpow_natCast]
  push_cast
  ring

theorem quarters_le {d d' : Decimal} (digits : d.digits ≤ d'.digits)
    (exponent : d.exponent ≤ d'.exponent) : d.quarters ≤ d'.quarters := by
  have digits : (d.digits : ℚ) ≤ d'.digits := by exact_mod_cast digits
  have power : (10 : ℚ) ^ d.exponent ≤ 10 ^ d'.exponent :=
    zpow_le_zpow_right₀ (by norm_num) exponent
  rw [quarters, quarters]
  apply mul_le_mul_of_nonneg_right _ (Nat.cast_nonneg _)
  exact mul_le_mul digits power (by positivity) (Nat.cast_nonneg _)

theorem quarters_zero (exponent : Int) : quarters ⟨0, exponent⟩ = 0 := by
  simp only [quarters, Nat.cast_zero, zero_mul]

end Decimal

namespace Interval

theorem one_pos : 0 < one := Nat.mul_pos (by decide) Sample.one_pos

/-- Whether a number of quarters lies in an interval. -/
def Covers (i : Interval) (q : ℚ) : Prop :=
  if i.closed then i.low ≤ q ∧ q ≤ i.high else i.low < q ∧ q < i.high

/-- An interval of positive numbers around its value. -/
structure IsProper (i : Interval) : Prop where
  low_pos : 0 < i.low
  low_lt : i.low < i.value
  lt_high : i.value < i.high

variable {i : Interval} {p q r : ℚ} {exponent : Int}

theorem Covers.between (first : i.Covers p) (last : i.Covers r) (above : p ≤ q) (below : q ≤ r) :
    i.Covers q := by
  rw [Covers] at first last ⊢
  split at first
  · next closed =>
    rw [if_pos closed] at last ⊢
    exact ⟨first.1.trans above, below.trans last.2⟩
  · next open_ends =>
    rw [if_neg open_ends] at last ⊢
    exact ⟨first.1.trans_le above, below.trans_lt last.2⟩

theorem Covers.le_high (covered : i.Covers q) : q ≤ i.high := by
  rw [Covers] at covered
  split at covered
  · exact covered.2
  · exact covered.2.le

theorem IsProper.covers_above (proper : i.IsProper) (above : i.value ≤ q) (below : q < i.high) :
    i.Covers q := by
  have low : (i.low : ℚ) < i.value := by exact_mod_cast proper.low_lt
  rw [Covers]
  split
  · exact ⟨low.le.trans above, below.le⟩
  · exact ⟨low.trans_le above, below⟩

theorem IsProper.covers_value (proper : i.IsProper) : i.Covers i.value :=
  proper.covers_above le_rfl (by exact_mod_cast proper.lt_high)

theorem IsProper.not_covers_zero (proper : i.IsProper) : ¬ i.Covers 0 := by
  have low : (0 : ℚ) < i.low := by exact_mod_cast proper.low_pos
  rw [Covers]
  split
  · rintro ⟨below, _⟩
    exact absurd below (not_le.mpr low)
  · rintro ⟨below, _⟩
    exact absurd below (not_lt.mpr low.le)

theorem contains_iff_covers {n : Nat} : i.contains n = true ↔ i.Covers n := by
  rw [contains, Covers]
  split
  · simp only [Bool.and_eq_true, decide_eq_true_eq, Nat.cast_le]
  · simp only [Bool.and_eq_true, decide_eq_true_eq, Nat.cast_lt]

theorem contains_of_between {a b n : Nat} (first : i.Covers a) (last : i.Covers b) (above : a ≤ n)
    (below : n ≤ b) : i.contains n = true :=
  contains_iff_covers.mpr
    (first.between last (by exact_mod_cast above) (by exact_mod_cast below))

/-- Both the ends and the value are stretched. -/
structure IsStretch (i j : Interval) (k : ℚ) : Prop where
  positive : 0 < k
  low : j.low = i.low * k
  value : j.value = i.value * k
  high : j.high = i.high * k
  closed : j.closed = i.closed

theorem IsStretch.covers_iff {j : Interval} {k : ℚ} (stretch : i.IsStretch j k) :
    j.Covers (q * k) ↔ i.Covers q := by
  obtain ⟨positive, low, _, high, closed⟩ := stretch
  rw [Covers, Covers, closed, low, high, mul_le_mul_iff_left₀ positive,
    mul_le_mul_iff_left₀ positive, mul_lt_mul_iff_left₀ positive, mul_lt_mul_iff_left₀ positive]

theorem IsStretch.isProper {j : Interval} {k : ℚ} (stretch : i.IsStretch j k)
    (proper : i.IsProper) : j.IsProper := by
  obtain ⟨positive, low, value, high, _⟩ := stretch
  obtain ⟨low_pos, low_lt, lt_high⟩ := proper
  rw [← @Nat.cast_lt ℚ] at low_pos low_lt lt_high
  constructor
  · rw [← @Nat.cast_lt ℚ, low, Nat.cast_zero]
    exact mul_pos low_pos positive
  · rw [← @Nat.cast_lt ℚ, low, value]
    exact mul_lt_mul_of_pos_right low_lt positive
  · rw [← @Nat.cast_lt ℚ, value, high]
    exact mul_lt_mul_of_pos_right lt_high positive

theorem isStretch_scale (i : Interval) (exponent : Int) :
    ∃ k, i.IsStretch (i.scale exponent).1 k ∧
      ((i.scale exponent).2 : ℚ) = Decimal.quarters ⟨1, exponent⟩ * k := by
  simp only [Decimal.quarters, Nat.cast_one, one_mul]
  rw [scale]
  split
  · next whole =>
    obtain ⟨places, rfl⟩ := Int.eq_ofNat_of_zero_le whole
    refine ⟨1, ⟨zero_lt_one, by simp, by simp, by simp, rfl⟩, ?_⟩
    rw [Int.toNat_natCast, zpow_natCast]
    push_cast
    ring
  · next fraction =>
    obtain ⟨places, rfl⟩ : ∃ places : Nat, exponent = -places := ⟨(-exponent).toNat, by omega⟩
    have positive : (0 : ℚ) < 10 ^ places := by positivity
    refine ⟨10 ^ places, ⟨positive, by simp, by simp, by simp, rfl⟩, ?_⟩
    rw [zpow_neg, zpow_natCast, mul_right_comm, inv_mul_cancel₀ positive.ne', one_mul]

theorem scale_contains_iff {digits : Nat} :
    (i.scale exponent).1.contains (digits * (i.scale exponent).2) = true ↔
      i.Covers (Decimal.quarters ⟨digits, exponent⟩) := by
  obtain ⟨k, stretch, size⟩ := i.isStretch_scale exponent
  have value : ((digits * (i.scale exponent).2 : Nat) : ℚ) =
      Decimal.quarters ⟨digits, exponent⟩ * k := by
    rw [Nat.cast_mul, size]
    simp only [Decimal.quarters]
    ring
  rw [contains_iff_covers, value, stretch.covers_iff]

theorem scale_pos (i : Interval) (exponent : Int) : 0 < (i.scale exponent).2 := by
  rw [scale]
  split
  · exact Nat.mul_pos one_pos (Nat.pow_pos (by decide))
  · exact one_pos

theorem covers_of_onGrid {digits : Nat} (hit : i.onGrid exponent = some digits) :
    i.Covers (Decimal.quarters ⟨digits, exponent⟩) := by
  rw [← scale_contains_iff]
  simp only [onGrid] at hit
  split at hit
  · next below above =>
    cases hit
    split
    · exact below
    · split
      · exact above
      · rcases Nat.mod_two_eq_zero_or_one ((i.scale exponent).1.value / (i.scale exponent).2) with
          even | odd
        · rw [even]
          exact below
        · rw [odd]
          exact above
  · next below _ =>
    cases hit
    exact below
  · next _ above =>
    cases hit
    exact above
  · cases hit

/-- If the two points of a grid around the value lie outside of the interval, all its points do. -/
theorem not_covers_of_onGrid (proper : i.IsProper) (missed : i.onGrid exponent = none)
    (digits : Nat) : ¬ i.Covers (Decimal.quarters ⟨digits, exponent⟩) := by
  obtain ⟨k, stretch, _⟩ := i.isStretch_scale exponent
  have inside := (stretch.isProper proper).covers_value
  have positive := i.scale_pos exponent
  have outside : (i.scale exponent).1.contains
        ((i.scale exponent).1.value / (i.scale exponent).2 * (i.scale exponent).2) = false ∧
      (i.scale exponent).1.contains
        (((i.scale exponent).1.value / (i.scale exponent).2 + 1) * (i.scale exponent).2) =
          false := by
    simp only [onGrid] at missed
    split at missed <;> simp_all
  rw [← scale_contains_iff, contains_iff_covers]
  generalize (i.scale exponent).1 = scaled at *
  generalize (i.scale exponent).2 = unit at *
  obtain ⟨below, above⟩ := outside
  intro covered
  rcases Nat.lt_or_ge (scaled.value / unit) digits with beyond | before
  · -- the point is above the value, and the next one above the value is between the two
    have next : scaled.value ≤ (scaled.value / unit + 1) * unit :=
      (Nat.lt_mul_of_div_lt (Nat.lt_succ_self _) positive).le
    have far : (scaled.value / unit + 1) * unit ≤ digits * unit := Nat.mul_le_mul_right _ beyond
    rw [contains_of_between inside covered next far] at above
    cases above
  · have far : digits * unit ≤ scaled.value / unit * unit := Nat.mul_le_mul_right _ before
    rw [contains_of_between covered inside far (Nat.div_mul_le_self _ _)] at below
    cases below

theorem onGrid_isSome (proper : i.IsProper)
    (fine : i.value + Decimal.quarters ⟨1, exponent⟩ < i.high) : (i.onGrid exponent).isSome := by
  have some_unit : (0 : ℚ) < one := by exact_mod_cast one_pos
  have size : 0 < Decimal.quarters ⟨1, exponent⟩ := by
    simp only [Decimal.quarters, Nat.cast_one, one_mul]
    exact mul_pos (by positivity) some_unit
  have point (digits : Nat) : Decimal.quarters ⟨digits, exponent⟩ =
      digits * Decimal.quarters ⟨1, exponent⟩ := by
    simp only [Decimal.quarters]
    ring
  -- the first point above the value
  let digits := ⌈(i.value : ℚ) / Decimal.quarters ⟨1, exponent⟩⌉₊
  have above : i.value ≤ Decimal.quarters ⟨digits, exponent⟩ := by
    rw [point, ← div_le_iff₀ size]
    exact Nat.le_ceil _
  have below : Decimal.quarters ⟨digits, exponent⟩ < i.high := by
    have next : (digits : ℚ) < i.value / Decimal.quarters ⟨1, exponent⟩ + 1 :=
      Nat.ceil_lt_add_one (div_nonneg (Nat.cast_nonneg _) size.le)
    have scaled := mul_lt_mul_of_pos_right next size
    rw [add_mul, one_mul, div_mul_cancel₀ _ size.ne', ← point] at scaled
    exact scaled.trans fine
  by_contra none
  rw [Option.not_isSome_iff_eq_none] at none
  exact not_covers_of_onGrid proper none digits (proper.covers_above above below)

/-- The search ends inside the interval if its last grid has a point there. -/
theorem covers_shortestFrom {grids : Nat} (reached : (i.onGrid (exponent - grids)).isSome) :
    i.Covers (i.shortestFrom (grids + 1) exponent).quarters := by
  induction grids generalizing exponent with
  | zero =>
    rw [Int.natCast_zero, Int.sub_zero] at reached
    obtain ⟨digits, hit⟩ := Option.isSome_iff_exists.mp reached
    simp only [shortestFrom, hit]
    exact covers_of_onGrid hit
  | succ grids ih =>
    rw [shortestFrom]
    cases hit : i.onGrid exponent with
    | some digits => exact covers_of_onGrid hit
    | none =>
      have last : exponent - 1 - (grids : Int) = exponent - ((grids + 1 : Nat) : Int) := by omega
      apply ih
      rwa [last]

/-- If it starts below a grid without a point, the grid above the one that it ends on has none. -/
theorem not_covers_above_shortestFrom {grids : Nat} (proper : i.IsProper)
    (above : ∀ digits, ¬ i.Covers (Decimal.quarters ⟨digits, exponent + 1⟩)) (digits : Nat) :
    ¬ i.Covers (Decimal.quarters ⟨digits, (i.shortestFrom grids exponent).exponent + 1⟩) := by
  induction grids generalizing exponent with
  | zero => exact above digits
  | succ grids ih =>
    rw [shortestFrom]
    cases hit : i.onGrid exponent with
    | some found => exact above digits
    | none =>
      apply ih
      rw [Int.sub_add_cancel]
      exact not_covers_of_onGrid proper hit

end Interval

end Rollup
