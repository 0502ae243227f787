import Mathlib.Data.Nat.Digits.Lemmas
import Rollup.Proofs.Decimal.Numeral

/-!
The fewest digits. Main statement: no numeral that is rounded to a sample has fewer digits, zeros
at its ends apart, than the one that the search finds. The search leaves no grid behind on which
the interval of the sample has a point, and a numeral of fewer digits would leave room for the
power of ten of the first digit, which is a point of such a grid.
-/

namespace Rollup

namespace Finite

variable {x : Finite}

theorem not_covers_above_decade (nonzero : x.isZero = false) (digits : Nat) :
    ¬ x.interval.Covers (Decimal.quarters ⟨digits, x.decade + 1⟩) := by
  intro covered
  rcases Nat.eq_zero_or_pos digits with rfl | some_digit
  · rw [Decimal.quarters_zero] at covered
    exact (isProper_interval nonzero).not_covers_zero covered
  · have least : Decimal.quarters ⟨1, x.decade + 1⟩ ≤ Decimal.quarters ⟨digits, x.decade + 1⟩ :=
      Decimal.quarters_le some_digit le_rfl
    exact absurd (x.high_lt.trans_le least) (not_lt.mpr covered.le_high)

/-- No coarser grid has a point in the interval. -/
theorem not_covers_above_shortest (nonzero : x.isZero = false) {exponent : Int}
    (coarser : x.shortest.exponent < exponent) (digits : Nat) :
    ¬ x.interval.Covers (Decimal.quarters ⟨digits, exponent⟩) := by
  obtain ⟨places, rfl⟩ : ∃ places : Nat, exponent = x.shortest.exponent + 1 + places :=
    ⟨(exponent - x.shortest.exponent - 1).toNat, by omega⟩
  rw [← Decimal.quarters_shift, shortest, nonzero]
  exact Interval.not_covers_above_shortestFrom (isProper_interval nonzero)
    (not_covers_above_decade nonzero) _

/-- The numeral found does not end with a zero. -/
theorem digits_shortest_mod_ten (nonzero : x.isZero = false) : x.shortest.digits % 10 ≠ 0 := by
  intro zero
  have found : x.interval.Covers (Decimal.quarters ⟨x.shortest.digits, x.shortest.exponent⟩) :=
    covers_shortest nonzero
  have tens : x.shortest.digits = x.shortest.digits / 10 * 10 ^ 1 := by omega
  rw [tens, Decimal.quarters_shift] at found
  exact not_covers_above_shortest nonzero (by omega) _ found

end Finite

namespace Numeral

/-- The digits of a numeral, the zeros at its ends not counted. -/
def significantDigits (n : Numeral) : Nat := ((Nat.digits 10 n.digits).dropWhile (· == 0)).length

/-- Without the zeros at its end a numeral is below the power of ten of its digits. -/
theorem exists_lt_pow_significantDigits (n : Numeral) :
    ∃ leading places, n.digits = leading * 10 ^ places ∧ leading < 10 ^ n.significantDigits := by
  have digits := Nat.ofDigits_digits 10 n.digits
  have zeros : ∀ d ∈ (Nat.digits 10 n.digits).takeWhile (· == 0), d = 0 := by
    intro d member
    have all := List.all_eq_true.mp (@List.all_takeWhile _ (· == 0) (Nat.digits 10 n.digits))
    simpa using all d member
  rw [← List.takeWhile_append_dropWhile (p := (· == 0)) (l := Nat.digits 10 n.digits),
    Nat.ofDigits_append, List.eq_replicate_of_mem zeros, Nat.ofDigits_replicate_zero,
    Nat.zero_add, List.length_replicate, Nat.mul_comm] at digits
  refine ⟨_, _, digits.symm, Nat.ofDigits_lt_base_pow_length (by decide) ?_⟩
  intro d member
  exact Nat.digits_lt_base (by decide) ((List.dropWhile_sublist _).mem member)

/-- Zeros that are written in the place of a power of ten do not count. -/
theorem significantDigits_ofPositional_le (negative : Bool) (d : Decimal) :
    (ofPositional negative d).significantDigits ≤ (Nat.digits 10 d.digits).length := by
  have value : ∃ places, (ofPositional negative d).digits = 10 ^ places * d.digits := by
    rw [ofPositional]
    split
    · exact ⟨_, rfl⟩
    · exact ⟨0, by simp⟩
  obtain ⟨places, value⟩ := value
  rw [significantDigits, value]
  rcases Nat.eq_zero_or_pos d.digits with none | positive
  · simp [none]
  · rw [Nat.digits_base_pow_mul (by decide) positive, List.dropWhile_append_of_pos (by simp)]
    exact (List.dropWhile_sublist _).length_le

end Numeral

/-- No numeral that is rounded to a sample has fewer digits than the one that the search finds. -/
theorem Finite.length_digits_shortest_le {x : Finite} (nonzero : x.isZero = false)
    {n : Numeral} (rounded : n.toSample = .finite x) :
    (Nat.digits 10 x.shortest.digits).length ≤ n.significantDigits := by
  have found := covers_shortest nonzero
  have given := (ofDecimal_eq_finite_iff.mp rounded).2
  obtain ⟨leading, places, value, small⟩ := n.exists_lt_pow_significantDigits
  rw [value, Decimal.quarters_shift] at given
  have finer : n.exponent + places ≤ x.shortest.exponent := by
    by_contra coarser
    exact not_covers_above_shortest nonzero (by omega) _ given
  by_contra fewer
  -- a power of ten with as many digits as the numeral found is between the two
  obtain ⟨zeros, length⟩ : ∃ zeros, (Nat.digits 10 x.shortest.digits).length = zeros + 1 :=
    Nat.exists_eq_add_one.mpr (by omega)
  have nonzero_digits := Nat.pos_iff_ne_zero.mp (x.shortest_digits_pos nonzero)
  have least := Nat.base_pow_length_digits_le 10 _ (by decide) nonzero_digits
  rw [length, Nat.pow_succ'] at least
  have above : leading ≤ 10 ^ zeros :=
    small.le.trans (Nat.pow_le_pow_right (by decide) (by omega))
  have power : x.interval.Covers (Decimal.quarters ⟨1 * 10 ^ zeros, x.shortest.exponent⟩) := by
    apply given.between found
    · exact Decimal.quarters_le (by simpa using above) finer
    · exact Decimal.quarters_le (by simp only; omega) le_rfl
  rcases Nat.eq_zero_or_pos zeros with rfl | some_zero
  · -- a single digit is left, so the other numeral is zero
    have none : leading = 0 := by
      have single : n.significantDigits = 0 := by omega
      rw [single] at small
      omega
    apply (isProper_interval nonzero).not_covers_zero
    rwa [none, Decimal.quarters_zero] at given
  · rw [Decimal.quarters_shift] at power
    exact not_covers_above_shortest nonzero (by omega) 1 power

end Rollup
