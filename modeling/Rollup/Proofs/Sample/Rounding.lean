import Mathlib.Tactic.Linarith
import Mathlib.Tactic.Ring
import Rollup.Sample.Basic

/-!
Rounding is to the nearest sample. Main statements: every quotient closer to a numeral than half
way to its neighbours is rounded to it, a quotient half way goes to the even one, and no quotient
lies more than half a unit of the last digit above what it is rounded to. No numeral of as many
digits is closer to a quotient than the one it is rounded to, so none lies between the two, larger
quotients are not rounded to smaller numerals, and the exponents up to a bound are those of the
quotients up to a bound.
-/

namespace Rollup

theorem Sample.one_eq : one = 2 ^ 1074 := by decide +kernel

theorem Sample.one_pos : 0 < one := by decide +kernel

section HalfEven

variable {num den : Nat}

theorem divHalfEven_eq {q : Nat} (positive : 0 < den)
    (low : 2 * q * den ≤ 2 * num + den) (high : 2 * num ≤ 2 * q * den + den)
    (tie : 2 * q * den = 2 * num + den ∨ 2 * num = 2 * q * den + den → q % 2 = 0) :
    divHalfEven num den = q := by
  have division : den * (num / den) + num % den = num := Nat.div_add_mod num den
  have small : num % den < den := Nat.mod_lt num positive
  simp only [divHalfEven]
  generalize num / den = d at division ⊢
  generalize num % den = r at division small ⊢
  have near : q = d ∨ q = d + 1 := by
    have lower : d < q + 1 := by
      by_contra above
      have : den * (q + 1) ≤ den * d := Nat.mul_le_mul_left den (by omega)
      linarith
    have upper : q < d + 2 := by
      by_contra above
      have : den * (d + 2) ≤ den * q := Nat.mul_le_mul_left den (by omega)
      linarith
    omega
  rcases near with rfl | rfl
  · by_cases below : 2 * r < den
    · rw [if_pos below]
    · have half : 2 * r = den := by linarith
      have even := tie (.inr (by linarith))
      rw [if_neg below, if_neg (by omega), even, Nat.add_zero]
  · rw [if_neg (by linarith)]
    by_cases above : den < 2 * r
    · rw [if_pos above]
    · have half : 2 * r = den := by linarith
      have even := tie (.inl (by linarith))
      rw [if_neg above]
      omega

/-- The rounded quotient lies no more than a half off, and exactly a half only if it is even. -/
theorem divHalfEven_near (positive : 0 < den) :
    2 * divHalfEven num den * den ≤ 2 * num + den ∧ 2 * num ≤ 2 * divHalfEven num den * den + den ∧
      (2 * divHalfEven num den * den = 2 * num + den ∨
        2 * num = 2 * divHalfEven num den * den + den → divHalfEven num den % 2 = 0) := by
  have division : den * (num / den) + num % den = num := Nat.div_add_mod num den
  have small : num % den < den := Nat.mod_lt num positive
  simp only [divHalfEven]
  generalize num / den = q at division ⊢
  generalize num % den = r at division small ⊢
  have below : 2 * q * den + 2 * r = 2 * num := by rw [← division]; ring
  have above : 2 * (q + 1) * den + 2 * r = 2 * num + 2 * den := by rw [← division]; ring
  by_cases down : 2 * r < den
  · rw [if_pos down]
    omega
  · rw [if_neg down]
    by_cases up : den < 2 * r
    · rw [if_pos up]
      omega
    · rw [if_neg up]
      rcases Nat.mod_two_eq_zero_or_one q with even | odd
      · rw [even, Nat.add_zero]
        omega
      · rw [odd]
        omega

theorem divHalfEven_mul_right {k : Nat} (positive : 0 < k) :
    divHalfEven (num * k) (den * k) = divHalfEven num den := by
  have less : 2 * (num % den * k) < den * k ↔ 2 * (num % den) < den := by
    rw [← Nat.mul_assoc]
    exact Nat.mul_lt_mul_right positive
  have more : den * k < 2 * (num % den * k) ↔ den < 2 * (num % den) := by
    rw [← Nat.mul_assoc]
    exact Nat.mul_lt_mul_right positive
  simp only [divHalfEven, Nat.mul_div_mul_right _ _ positive, Nat.mul_mod_mul_right, less, more]

end HalfEven

namespace Binary

variable {digits num den : Nat}

/-- The quotients nearest to a numeral: those within half a unit of its last digit, the ends only
if it is even. Below a power of two the units are half as long. -/
structure IsNearest (digits : Nat) (b : Binary) (num den : Nat) : Prop where
  low : 2 * b.significand * (den * 2 ^ b.exponent) ≤ 2 * num + den * 2 ^ b.exponent
  high : 2 * num ≤ 2 * b.significand * (den * 2 ^ b.exponent) + den * 2 ^ b.exponent
  tie : 2 * b.significand * (den * 2 ^ b.exponent) = 2 * num + den * 2 ^ b.exponent ∨
    2 * num = 2 * b.significand * (den * 2 ^ b.exponent) + den * 2 ^ b.exponent →
      b.significand % 2 = 0
  power : b.significand = 2 ^ (digits - 1) → 0 < b.exponent →
    4 * b.significand * (den * 2 ^ b.exponent) ≤ 4 * num + den * 2 ^ b.exponent

/-- A numeral in its one form: as few as possible places after the point. -/
structure IsNormal (digits : Nat) (b : Binary) : Prop where
  significand_lt : b.significand < 2 ^ digits
  normal : b.exponent = 0 ∨ 2 ^ (digits - 1) ≤ b.significand

theorem exponent_eq {e : Nat} (some_digit : 0 < digits) (positive : 0 < den)
    (low : 2 ^ (digits - 1) * (den * 2 ^ e) ≤ num) (high : num < 2 ^ digits * (den * 2 ^ e)) :
    (num / den).log2 + 1 - digits = e := by
  have lower : 2 ^ (digits - 1 + e) ≤ num / den := by
    rw [Nat.le_div_iff_mul_le positive]
    calc
      2 ^ (digits - 1 + e) * den = 2 ^ (digits - 1) * (den * 2 ^ e) := by ring
      _ ≤ num := low
  have upper : num / den < 2 ^ (digits - 1 + e + 1) := by
    have places : digits - 1 + e + 1 = digits + e := by omega
    rw [Nat.div_lt_iff_lt_mul positive, places]
    calc
      num < 2 ^ digits * (den * 2 ^ e) := high
      _ = 2 ^ (digits + e) * den := by ring
  have nonzero : num / den ≠ 0 := by
    have := Nat.two_pow_pos (digits - 1 + e)
    omega
  rw [(Nat.log2_eq_iff nonzero).mpr ⟨lower, upper⟩]
  omega

/-- A numeral is what the quotients nearest to it are rounded to. -/
theorem nearest_eq {b : Binary} (some_digit : 0 < digits) (positive : 0 < den)
    (form : b.IsNormal digits) (near : b.IsNearest digits num den) :
    nearest digits num den = b := by
  obtain ⟨m, e⟩ := b
  obtain ⟨low, high, tie, power⟩ := near
  obtain ⟨small, normal⟩ := form
  simp only at low high tie power small normal
  have places : 0 < den * 2 ^ e := Nat.mul_pos positive (Nat.two_pow_pos e)
  have top : 2 ^ digits = 2 * 2 ^ (digits - 1) := by
    rw [← Nat.pow_succ']
    congr 1
    omega
  have below : num < 2 ^ digits * (den * 2 ^ e) := by
    have : (m + 1) * (den * 2 ^ e) ≤ 2 ^ digits * (den * 2 ^ e) :=
      Nat.mul_le_mul_right _ small
    linarith
  by_cases inside : 2 ^ (digits - 1) * (den * 2 ^ e) ≤ num
  · -- the quotient has as many places as the numeral
    have exponent := exponent_eq some_digit positive inside below
    have significand := divHalfEven_eq places low high tie
    simp only [nearest, exponent, significand]
    rw [if_neg (by omega)]
  · cases e with
    | zero =>
      -- fewer digits than there could be, on the finest grid
      have exponent : (num / den).log2 + 1 - digits = 0 := by
        by_cases zero : num / den = 0
        · rw [zero, Nat.log2_zero]
          omega
        · have : (num / den).log2 < digits := by
            rw [Nat.log2_lt zero, Nat.div_lt_iff_lt_mul positive]
            linarith
          omega
      have significand := divHalfEven_eq places low high tie
      simp only [nearest, exponent, significand]
      rw [if_neg (by omega)]
    | succ e =>
      -- just below a power of two, rounded up to it on the grid below
      have least : m = 2 ^ (digits - 1) := by
        rcases normal with none | full
        · omega
        · by_contra more
          have : (2 ^ (digits - 1) + 1) * (den * 2 ^ (e + 1)) ≤ m * (den * 2 ^ (e + 1)) :=
            Nat.mul_le_mul_right _ (by omega)
          linarith
      have half : den * 2 ^ (e + 1) = 2 * (den * 2 ^ e) := by
        rw [Nat.pow_succ]
        ring
      have close := power least (by omega)
      rw [half] at close inside
      have finer : 0 < den * 2 ^ e := Nat.mul_pos positive (Nat.two_pow_pos e)
      have exponent : (num / den).log2 + 1 - digits = e := by
        apply exponent_eq some_digit positive
        · have := Nat.one_le_two_pow (n := digits - 1)
          have : 1 * (den * 2 ^ e) ≤ 2 ^ (digits - 1) * (den * 2 ^ e) :=
            Nat.mul_le_mul_right _ this
          rw [least] at close
          linarith
        · rw [top]
          linarith
      have significand : divHalfEven num (den * 2 ^ e) = 2 ^ digits := by
        rw [top, ← least]
        rw [← least] at inside
        apply divHalfEven_eq finer
        · linarith
        · linarith
        · intro _
          omega
      simp only [nearest, exponent, significand, if_true]
      rw [least]

/-- What a quotient is rounded to is nearest to it. -/
theorem isNearest_nearest (some_digit : 0 < digits) (positive : 0 < den) :
    (nearest digits num den).IsNearest digits num den := by
  have places : 0 < den * 2 ^ ((num / den).log2 + 1 - digits) :=
    Nat.mul_pos positive (Nat.two_pow_pos _)
  obtain ⟨low, high, tie⟩ := @divHalfEven_near num _ places
  simp only [nearest]
  split
  · -- carried to the power of two above, on the next grid
    next carry =>
    have top : 2 ^ digits = 2 * 2 ^ (digits - 1) := by
      rw [← Nat.pow_succ']
      congr 1
      omega
    have half (e : Nat) : den * 2 ^ (e + 1) = 2 * (den * 2 ^ e) := by
      rw [Nat.pow_succ]
      ring
    rw [carry, top] at low high
    generalize (num / den).log2 + 1 - digits = e at places low high ⊢
    constructor
    · simp only [half]
      linarith
    · simp only [half]
      linarith
    · simp only [half]
      intro ends
      rcases ends with above | below
      · linarith
      · linarith
    · simp only [half]
      intro _ _
      linarith
  · constructor
    · exact low
    · exact high
    · exact tie
    · intro power coarse
      simp only at power coarse ⊢
      -- a quotient on a coarse grid is not below the power of two that it is rounded to
      have nonzero : num / den ≠ 0 := by
        intro zero
        rw [zero, Nat.log2_zero] at coarse
        omega
      have least : 2 ^ (digits - 1) * (den * 2 ^ ((num / den).log2 + 1 - digits)) ≤ num := by
        calc
          2 ^ (digits - 1) * (den * 2 ^ ((num / den).log2 + 1 - digits)) =
              2 ^ (digits - 1 + ((num / den).log2 + 1 - digits)) * den := by ring
          _ = 2 ^ (num / den).log2 * den := by
            congr 2
            omega
          _ ≤ num / den * den := Nat.mul_le_mul_right den (Nat.log2_self_le nonzero)
          _ ≤ num := Nat.div_mul_le_self num den
      rw [power]
      linarith

/-- No quotient is more than half a unit of the last digit above its numeral. -/
theorem le_nearest (some_digit : 0 < digits) (positive : 0 < den) :
    2 * num ≤ (2 * (nearest digits num den).significand + 1) *
      (den * 2 ^ (nearest digits num den).exponent) := by
  have near := @isNearest_nearest digits num den some_digit positive
  rw [Nat.add_mul, Nat.one_mul]
  exact near.high

/-- The distance of a numeral from a quotient, in parts of the quotient's denominator. -/
def distance (b : Binary) (num den : Nat) : Nat :=
  ((b.significand * 2 ^ b.exponent * den : Nat) - num : Int).natAbs

/-- No numeral of as many digits is closer to the quotient, and none but an even one is as close as
another number. -/
structure IsClosest (digits : Nat) (b : Binary) (num den : Nat) : Prop where
  form : b.IsNormal digits
  closest : ∀ other : Binary, other.IsNormal digits → b.distance num den ≤ other.distance num den
  even : ∀ other : Binary, other.IsNormal digits → other.distance num den = b.distance num den →
    other.significand * 2 ^ other.exponent ≠ b.significand * 2 ^ b.exponent →
      b.significand % 2 = 0

/-- The numerals next to a numeral lie one unit of its last digit away, or half of one below a
power of two. -/
theorem gap_of_ne {b other : Binary} (some_digit : 0 < digits) (form : b.IsNormal digits)
    (normal : other.IsNormal digits)
    (differ : other.significand * 2 ^ other.exponent ≠ b.significand * 2 ^ b.exponent) :
    b.significand * 2 ^ b.exponent + 2 ^ b.exponent ≤ other.significand * 2 ^ other.exponent ∨
    other.significand * 2 ^ other.exponent + 2 ^ b.exponent ≤ b.significand * 2 ^ b.exponent ∨
    (b.significand = 2 ^ (digits - 1) ∧ 0 < b.exponent ∧
      2 * (other.significand * 2 ^ other.exponent) + 2 ^ b.exponent ≤
        2 * (b.significand * 2 ^ b.exponent)) := by
  obtain ⟨m, e⟩ := b
  obtain ⟨n, f⟩ := other
  obtain ⟨_, full⟩ := form
  obtain ⟨small, _⟩ := normal
  simp only at *
  rcases Nat.lt_or_ge f e with finer | coarser
  · -- the other numeral has more places after its point, so it lies below
    have least : 2 ^ (digits - 1) ≤ m := by omega
    have top : 2 ^ digits = 2 * 2 ^ (digits - 1) := by
      rw [← Nat.pow_succ']
      congr 1
      omega
    have unit : 2 ^ e = 2 * 2 ^ (e - 1) := by
      rw [← Nat.pow_succ']
      congr 1
      omega
    have below : 2 * (n * 2 ^ f) + 2 ^ e ≤ 2 * (2 ^ (digits - 1) * 2 ^ e) := by
      have finest : n * 2 ^ f + 2 ^ (e - 1) ≤ 2 ^ digits * 2 ^ (e - 1) := by
        calc
          n * 2 ^ f + 2 ^ (e - 1) ≤ n * 2 ^ (e - 1) + 2 ^ (e - 1) :=
            Nat.add_le_add_right
              (Nat.mul_le_mul_left n (Nat.pow_le_pow_right (by decide) (by omega))) _
          _ = (n + 1) * 2 ^ (e - 1) := by ring
          _ ≤ 2 ^ digits * 2 ^ (e - 1) := Nat.mul_le_mul_right _ small
      rw [top] at finest
      rw [unit]
      linarith
    rcases Nat.eq_or_lt_of_le least with equal | more
    · exact .inr (.inr ⟨equal.symm, by omega, equal ▸ below⟩)
    · have beyond : (2 ^ (digits - 1) + 1) * 2 ^ e ≤ m * 2 ^ e := Nat.mul_le_mul_right _ more
      have positive := Nat.two_pow_pos e
      exact .inr (.inl (by linarith))
  · have same_grid : n * 2 ^ f = n * 2 ^ (f - e) * 2 ^ e := by
      rw [Nat.mul_assoc, ← Nat.pow_add]
      congr 2
      omega
    rw [same_grid] at differ ⊢
    generalize n * 2 ^ (f - e) = p at differ ⊢
    rcases Nat.lt_trichotomy p m with less | rfl | more
    · have : (p + 1) * 2 ^ e ≤ m * 2 ^ e := Nat.mul_le_mul_right _ less
      exact .inr (.inl (by linarith))
    · exact absurd rfl differ
    · have : (m + 1) * 2 ^ e ≤ p * 2 ^ e := Nat.mul_le_mul_right _ more
      exact .inl (by linarith)

/-- Half a unit of the last digit on either side is as far as a nearest quotient lies. -/
theorem IsNearest.isClosest {b : Binary} (some_digits : 1 < digits) (form : b.IsNormal digits)
    (near : b.IsNearest digits num den) : b.IsClosest digits num den := by
  have compare : ∀ other : Binary, other.IsNormal digits →
      other.significand * 2 ^ other.exponent ≠ b.significand * 2 ^ b.exponent →
        b.distance num den ≤ other.distance num den ∧
          (other.distance num den = b.distance num den → b.significand % 2 = 0) := by
    intro other normal differ
    obtain ⟨low, high, tie, power⟩ := near
    have scale {x y : Nat} (le : x ≤ y) : x * den ≤ y * den := Nat.mul_le_mul_right den le
    have value : b.significand * (den * 2 ^ b.exponent) = b.significand * 2 ^ b.exponent * den := by
      ring
    rw [Nat.mul_assoc, value] at low high tie power
    rw [Nat.mul_comm den] at low high tie power
    have even : b.significand = 2 ^ (digits - 1) → b.significand % 2 = 0 := by
      intro least
      obtain ⟨k, rfl⟩ : ∃ k, digits = k + 2 := ⟨digits - 2, by omega⟩
      rw [least, Nat.add_sub_assoc (by decide), Nat.pow_succ]
      omega
    simp only [distance]
    rcases gap_of_ne (by omega) form normal differ with above | below | ⟨least, coarse, below⟩
    · have apart := scale above
      rw [Nat.add_mul] at apart
      generalize b.significand * 2 ^ b.exponent * den = value at *
      generalize other.significand * 2 ^ other.exponent * den = far at *
      generalize 2 ^ b.exponent * den = unit at *
      omega
    · have apart := scale below
      rw [Nat.add_mul] at apart
      generalize b.significand * 2 ^ b.exponent * den = value at *
      generalize other.significand * 2 ^ other.exponent * den = far at *
      generalize 2 ^ b.exponent * den = unit at *
      omega
    · have apart := scale below
      rw [Nat.add_mul, Nat.mul_assoc, Nat.mul_assoc 2] at apart
      have close := power least coarse
      have parity := even least
      generalize b.significand * 2 ^ b.exponent * den = value at *
      generalize other.significand * 2 ^ other.exponent * den = far at *
      generalize 2 ^ b.exponent * den = unit at *
      omega
  constructor
  · exact form
  · intro other normal
    by_cases same : other.significand * 2 ^ other.exponent = b.significand * 2 ^ b.exponent
    · rw [distance, distance, same]
    · exact (compare other normal same).1
  · intro other normal equal differ
    exact (compare other normal differ).2 equal

/-- Only the quotient counts. -/
theorem nearest_mul_right {k : Nat} (positive : 0 < k) :
    nearest digits (num * k) (den * k) = nearest digits num den := by
  simp only [nearest, Nat.mul_div_mul_right _ _ positive, Nat.mul_right_comm den k,
    divHalfEven_mul_right positive]

/-- A number of at most that many digits has its one form on each coarser grid too. -/
theorem exists_isNormal {n : Nat} (some_digit : 0 < digits) (small : n < 2 ^ digits)
    (places : Nat) :
    ∃ b : Binary, b.IsNormal digits ∧ b.significand * 2 ^ b.exponent = n * 2 ^ places := by
  induction places generalizing n with
  | zero => exact ⟨⟨n, 0⟩, ⟨small, .inl rfl⟩, rfl⟩
  | succ places ih =>
    by_cases full : 2 ^ (digits - 1) ≤ n
    · exact ⟨⟨n, places + 1⟩, ⟨small, .inr full⟩, rfl⟩
    · have top : 2 ^ digits = 2 * 2 ^ (digits - 1) := by
        rw [← Nat.pow_succ']
        congr 1
        omega
      obtain ⟨b, form, value⟩ := ih (n := 2 * n) (by omega)
      refine ⟨b, form, ?_⟩
      rw [value, Nat.pow_succ]
      ring

/-- A quotient is not rounded past a numeral. -/
theorem nearest_le {b : Binary} (some_digits : 1 < digits) (positive : 0 < den)
    (form : b.IsNormal digits) (below : num ≤ b.significand * 2 ^ b.exponent * den) :
    (nearest digits num den).significand * 2 ^ (nearest digits num den).exponent ≤
      b.significand * 2 ^ b.exponent := by
  have rounded : (nearest digits num den).IsNormal digits :=
    ⟨nearest_significand_lt (by omega), nearest_normal (by omega)⟩
  have near := (isNearest_nearest (by omega) positive).isClosest some_digits rounded
  have closer := near.closest b form
  by_contra beyond
  have apart : b.significand * 2 ^ b.exponent * den <
      (nearest digits num den).significand * 2 ^ (nearest digits num den).exponent * den :=
    Nat.mul_lt_mul_of_pos_right (by omega) positive
  simp only [distance] at closer
  omega

/-- A numeral is not rounded. -/
theorem value_nearest {b : Binary} (some_digits : 1 < digits) (form : b.IsNormal digits) :
    (nearest digits (b.significand * 2 ^ b.exponent) 1).significand *
      2 ^ (nearest digits (b.significand * 2 ^ b.exponent) 1).exponent =
        b.significand * 2 ^ b.exponent := by
  have rounded : (nearest digits (b.significand * 2 ^ b.exponent) 1).IsNormal digits :=
    ⟨nearest_significand_lt (by omega), nearest_normal (by omega)⟩
  have near := (isNearest_nearest (by omega) Nat.one_pos).isClosest some_digits rounded
  have closer := near.closest b form
  simp only [distance, Nat.mul_one] at closer
  omega

/-- A quotient is not rounded below what a smaller one is rounded to. -/
theorem nearest_mono {num' den' : Nat} (some_digits : 1 < digits) (positive : 0 < den)
    (positive' : 0 < den') (le : num * den' ≤ num' * den) :
    (nearest digits num den).significand * 2 ^ (nearest digits num den).exponent ≤
      (nearest digits num' den').significand * 2 ^ (nearest digits num' den').exponent := by
  -- over one denominator the quotients are told apart by their numerators
  have common : 0 < den * den' := Nat.mul_pos positive positive'
  have first := @nearest_mul_right digits num den den' positive'
  have second := @nearest_mul_right digits num' den' den positive
  rw [Nat.mul_comm den'] at second
  rw [← first, ← second]
  generalize num * den' = low at le ⊢
  generalize num' * den = high at le ⊢
  generalize den * den' = parts at common ⊢
  rcases Nat.eq_or_lt_of_le le with rfl | apart
  · exact Nat.le_refl _
  · have form (n : Nat) : (nearest digits n parts).IsNormal digits :=
      ⟨nearest_significand_lt (by omega), nearest_normal (by omega)⟩
    have closest (n : Nat) : (nearest digits n parts).IsClosest digits n parts :=
      (isNearest_nearest (by omega) common).isClosest some_digits (form n)
    have low_near := (closest low).closest _ (form high)
    have high_near := (closest high).closest _ (form low)
    by_contra beyond
    have crossed := Nat.mul_lt_mul_of_pos_right (Nat.not_le.mp beyond) common
    simp only [distance] at low_near high_near
    omega

/-- The exponents up to some bound are those of the quotients that lie nearer to the largest numeral
with that exponent than to the power of two above it. -/
theorem exponent_nearest_le_iff {top : Nat} (some_digits : 1 < digits) (positive : 0 < den) :
    (nearest digits num den).exponent ≤ top ↔
      2 * num < (2 ^ (digits + 1) - 1) * (den * 2 ^ top) := by
  have small : (nearest digits num den).significand < 2 ^ digits :=
    nearest_significand_lt (by omega)
  have normal := @nearest_normal digits num den (by omega)
  obtain ⟨low, high, tie, power⟩ := @isNearest_nearest digits num den (by omega) positive
  have unit : 0 < den * 2 ^ (nearest digits num den).exponent :=
    Nat.mul_pos positive (Nat.two_pow_pos _)
  have half : 2 ^ digits = 2 * 2 ^ (digits - 1) := by
    rw [← Nat.pow_succ']
    congr 1
    omega
  have whole : 2 ^ (digits + 1) - 1 = 4 * 2 ^ (digits - 1) - 1 := by
    rw [Nat.pow_succ', half, ← Nat.mul_assoc]
  have some_place : 0 < 2 ^ (digits - 1) := Nat.two_pow_pos _
  rw [whole]
  rw [half] at small
  generalize nearest digits num den = b at *
  generalize 2 ^ (digits - 1) = least at *
  constructor
  · intro inside
    have coarser : den * 2 ^ b.exponent ≤ den * 2 ^ top :=
      Nat.mul_le_mul_left den (Nat.pow_le_pow_right (by decide) inside)
    have largest : (2 * b.significand + 1) * (den * 2 ^ b.exponent) ≤
        (4 * least - 1) * (den * 2 ^ top) :=
      Nat.mul_le_mul (by omega) coarser
    by_cases last : b.significand + 1 = 2 * least
    · -- the largest significand is odd, so the quotient half way above it is rounded up
      have odd : 2 * num ≠ 2 * b.significand * (den * 2 ^ b.exponent) + den * 2 ^ b.exponent := by
        intro above
        have even := tie (.inr above)
        omega
      linarith [Nat.lt_of_le_of_ne high odd]
    · have below : (2 * b.significand + 2) * (den * 2 ^ b.exponent) ≤
          (4 * least - 1) * (den * 2 ^ top) :=
        Nat.mul_le_mul (by omega) coarser
      linarith
  · intro inside
    by_contra beyond
    have finer : 2 * (den * 2 ^ top) ≤ den * 2 ^ b.exponent := by
      rw [Nat.mul_left_comm, ← Nat.pow_succ']
      exact Nat.mul_le_mul_left den (Nat.pow_le_pow_right (by decide) (by omega))
    have full : least ≤ b.significand := by omega
    have scaled : (4 * least - 1) * (2 * (den * 2 ^ top)) ≤
        (4 * least - 1) * (den * 2 ^ b.exponent) :=
      Nat.mul_le_mul_left _ finer
    rcases Nat.eq_or_lt_of_le full with equal | more
    · have close := power equal.symm (by omega)
      have quarter : (4 * least - 1) * (den * 2 ^ b.exponent) + den * 2 ^ b.exponent =
          4 * b.significand * (den * 2 ^ b.exponent) := by
        rw [← Nat.succ_mul, ← equal]
        congr 1
        omega
      linarith
    · have above : (4 * least - 1) * (den * 2 ^ b.exponent) ≤
          2 * (2 * b.significand - 1) * (den * 2 ^ b.exponent) :=
        Nat.mul_le_mul_right _ (by omega)
      have rest : 2 * (2 * b.significand - 1) * (den * 2 ^ b.exponent) +
          2 * (den * 2 ^ b.exponent) = 2 * (2 * b.significand * (den * 2 ^ b.exponent)) := by
        rw [← Nat.add_mul, ← Nat.mul_assoc 2 (2 * b.significand)]
        congr 1
        omega
      linarith

end Binary

namespace Sample

theorem ofRatio_mul_right {num den k : Nat} (positive : 0 < k) (negative : Bool) :
    ofRatio negative (num * k) (den * k) = ofRatio negative num den := by
  simp only [ofRatio, Binary.nearest_mul_right positive]

theorem magnitude_of_ofRatio {negative : Bool} {num den : Nat} {x : Finite}
    (quotient : ofRatio negative num den = .finite x) :
    x.magnitude =
      (Binary.nearest 53 num den).significand * 2 ^ (Binary.nearest 53 num den).exponent := by
  simp only [ofRatio] at quotient
  split at quotient
  · cases quotient
    rfl
  · cases quotient

/-- The numeral of a whole number of at most 53 digits. -/
theorem exists_isNormal {n : Nat} (small : n ≤ 2 ^ 53) :
    ∃ b : Binary, b.IsNormal 53 ∧ b.significand * 2 ^ b.exponent = n * one := by
  rw [one_eq]
  rcases Nat.lt_or_eq_of_le small with less | rfl
  · exact Binary.exists_isNormal (by decide) less 1074
  · exact ⟨⟨2 ^ 52, 1075⟩, ⟨by decide, .inr (by decide)⟩, by decide +kernel⟩

end Sample

end Rollup
