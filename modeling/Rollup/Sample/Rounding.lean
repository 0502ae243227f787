/-!
Rounding an exact quotient to a binary numeral with a given number of significant digits.
Main statements: the significand has at most that many digits, and it has exactly that many
unless the numeral sits on the finest grid.
-/

-- Powers are the built-in ones, also beside a library that brings its own.
attribute [instance (20000), default_instance 20000] instPowNat

namespace Rollup

/-- The integer nearest to `num / den`; a half goes to the even neighbour. -/
def divHalfEven (num den : Nat) : Nat :=
  let q := num / den
  let r := num % den
  if 2 * r < den then q
  else if den < 2 * r then q + 1
  else q + q % 2

theorem divHalfEven_le (num den : Nat) : divHalfEven num den ≤ num / den + 1 := by
  simp only [divHalfEven]
  split
  · omega
  · split <;> omega

theorem le_divHalfEven (num den : Nat) : num / den ≤ divHalfEven num den := by
  simp only [divHalfEven]
  split
  · omega
  · split <;> omega

/-- The number `significand * 2 ^ exponent`, in units of the finest grid. -/
structure Binary where
  significand : Nat
  exponent : Nat
  deriving DecidableEq, Repr

namespace Binary

/-- The numeral of at most `digits` significant bits nearest to `num / den`, ties to even. A
quotient below `2 ^ digits` is rounded on the grid of the units themselves. -/
def nearest (digits num den : Nat) : Binary :=
  let exponent := (num / den).log2 + 1 - digits
  let significand := divHalfEven num (den * 2 ^ exponent)
  if significand = 2 ^ digits then ⟨2 ^ (digits - 1), exponent + 1⟩
  else ⟨significand, exponent⟩

variable {digits num den : Nat}

theorem nearest_step_le :
    divHalfEven num (den * 2 ^ ((num / den).log2 + 1 - digits)) ≤ 2 ^ digits := by
  have below : num / den < 2 ^ ((num / den).log2 + 1) := Nat.lt_log2_self
  have wide : 2 ^ ((num / den).log2 + 1) ≤ 2 ^ ((num / den).log2 + 1 - digits) * 2 ^ digits := by
    rw [← Nat.pow_add]
    exact Nat.pow_le_pow_right (by decide) (by omega)
  have small : num / (den * 2 ^ ((num / den).log2 + 1 - digits)) < 2 ^ digits := by
    rw [← Nat.div_div_eq_div_mul]
    exact Nat.div_lt_of_lt_mul (Nat.lt_of_lt_of_le below wide)
  have := divHalfEven_le num (den * 2 ^ ((num / den).log2 + 1 - digits))
  omega

theorem nearest_significand_lt (some_digit : 0 < digits) :
    (nearest digits num den).significand < 2 ^ digits := by
  have bound := @nearest_step_le digits num den
  simp only [nearest]
  split
  · exact Nat.pow_lt_pow_right (by decide) (by omega)
  · exact Nat.lt_of_le_of_ne bound (by assumption)

theorem nearest_normal (some_digit : 0 < digits) :
    (nearest digits num den).exponent = 0 ∨
      2 ^ (digits - 1) ≤ (nearest digits num den).significand := by
  simp only [nearest]
  split
  · exact .inr (Nat.le_refl _)
  · by_cases coarse : (num / den).log2 + 1 - digits = 0
    · exact .inl coarse
    · right
      have nonzero : num / den ≠ 0 := by
        intro zero
        rw [zero] at coarse
        simp at coarse
        omega
      have low : 2 ^ (num / den).log2 ≤ num / den := Nat.log2_self_le nonzero
      have split_pow : 2 ^ (num / den).log2 =
          2 ^ (digits - 1) * 2 ^ ((num / den).log2 + 1 - digits) := by
        rw [← Nat.pow_add]
        congr 1
        omega
      refine Nat.le_trans ?_ (le_divHalfEven _ _)
      rw [← Nat.div_div_eq_div_mul]
      exact (Nat.le_div_iff_mul_le (Nat.two_pow_pos _)).mpr (split_pow ▸ low)

end Binary

end Rollup
