import Rollup.Proofs.Decimal.Balanced
import Rollup.Proofs.Decimal.Minimal
import Rollup.Sample.Arithmetic

/-!
The texts of samples. Main statement: a finite sample is written without an exponent and without
zeros that could be left out, its text stands for the sample, and no numeral of fewer digits does.
So different samples have different texts.
-/

namespace Rollup

namespace Numeral

variable {places n : Nat}

theorem getLast?_toDigits (n : Nat) : (Nat.toDigits 10 n).getLast? = some (n % 10).digitChar := by
  rcases Nat.lt_or_ge n 10 with small | large
  · rw [Nat.toDigits_of_lt_base small, Nat.mod_eq_of_lt small, List.getLast?_singleton]
  · rw [Nat.toDigits_of_base_le (by decide) large, List.getLast?_concat]

theorem getLast?_fractionPart (some_place : 0 < places) :
    (fractionPart places n).getLast? = some (n % 10).digitChar := by
  have whole := congrArg List.getLast? (wholePart_append_fractionPart places n)
  have length := length_fractionPart places n
  rw [padded, List.getLast?_append, List.getLast?_append, getLast?_toDigits,
    Option.some_or] at whole
  cases last : (fractionPart places n).getLast? with
  | none =>
    rw [List.getLast?_eq_none_iff.mp last, List.length_nil] at length
    omega
  | some c =>
    rw [last, Option.some_or] at whole
    exact whole

/-- A sign, a whole part without needless zeros, and a fraction that does not end with a zero, if
there is one. -/
def IsPositional (s : List Char) : Prop :=
  ∃ negative whole fraction, s = sign negative ++ (whole ++ fractionText fraction) ∧
    IsWhole whole ∧ (∀ c ∈ fraction, c.isDigit = true) ∧ fraction.getLast? ≠ some '0'

theorem isPositional (negative : Bool) {d : Decimal} (form : 0 < d.digits ∨ d.exponent ≤ 0)
    (ends : d.exponent < 0 → d.digits % 10 ≠ 0) : IsPositional (sign negative ++ d.positional) := by
  rcases exponent_cases d with ⟨places, some_place, exponent⟩ | ⟨places, exponent⟩
  · have some_digit : (fractionPart places d.digits).isEmpty = false := by
      rw [List.isEmpty_eq_false_iff_exists_mem, ← List.length_pos_iff_exists_mem,
        length_fractionPart]
      exact some_place
    refine ⟨negative, wholePart places d.digits, fractionPart places d.digits, ?_,
      isWhole_wholePart _ _, ?_, ?_⟩
    · rw [positional_of_fraction some_place exponent, fractionText, some_digit]
      rfl
    · intro c member
      exact padded_digits _ _ c (List.mem_of_mem_drop member)
    · rw [getLast?_fractionPart some_place]
      intro zero
      exact digitChar_ne_zero (Nat.mod_lt _ (by decide)) (ends (by omega)) (Option.some.inj zero)
  · have written := isWhole_zeros places (form.imp_right fun low => by omega)
    refine ⟨negative, _, [], ?_, written, by simp, by simp⟩
    rw [positional_of_whole exponent, fractionText, List.isEmpty_nil, if_pos rfl, List.append_nil]

end Numeral

namespace Sample

/-- What is read from a text, if it is a numeral. -/
theorem map_toSample_text (x : Sample) :
    (Numeral.ofText? x.text).map Numeral.toSample = if x.isFinite then some x else none := by
  cases x with
  | missing =>
    have no_numeral : Numeral.ofText? missing.text = none := by decide
    rw [no_numeral]
    rfl
  | infinite negative =>
    have no_numeral : Numeral.ofText? (infinite negative).text = none := by
      cases negative <;> decide
    rw [no_numeral]
    rfl
  | finite x =>
    obtain ⟨n, read, value⟩ := Numeral.ofText?_text x
    rw [read, Option.map_some, value]
    rfl

theorem text_injective : Function.Injective text := by
  intro x y same
  have read := x.map_toSample_text
  rw [same, y.map_toSample_text] at read
  have infinities : ∀ a b, (infinite a).text = (infinite b).text → a = b := by decide
  have words : ∀ a, missing.text ≠ (infinite a).text := by decide
  cases x with
  | missing =>
    cases y with
    | missing => rfl
    | infinite b => exact absurd same (words b)
    | finite y => cases read
  | infinite a =>
    cases y with
    | missing => exact absurd same.symm (words a)
    | infinite b => rw [infinities a b same]
    | finite y => cases read
  | finite x =>
    cases y with
    | missing | infinite => cases read
    | finite y => exact (Option.some.inj read).symm

/-- The text of a finite sample is positional, stands for the sample with its sign, and has as few
digits as any numeral that does; different samples have different texts. -/
theorem numeral_of_text :
    (∀ x : Finite, Numeral.IsPositional (finite x).text ∧
      ∃ n, Numeral.ofText? (finite x).text = some n ∧ n.toSample = .finite x ∧
        (x.isZero = false → ∀ other : Numeral, other.toSample = .finite x →
          n.significantDigits ≤ other.significantDigits)) ∧
    Function.Injective text := by
  refine ⟨?_, text_injective⟩
  intro x
  have form := Numeral.shortest_form x
  constructor
  · apply Numeral.isPositional x.negative form
    intro fraction
    apply x.digits_shortest_mod_ten
    by_contra zero
    have zero : x.isZero = true := by simpa using zero
    rw [Finite.shortest, if_pos zero] at fraction
    cases fraction
  · refine ⟨_, Numeral.ofText?_positional x.negative form, ?_, ?_⟩
    · rw [Numeral.toSample_ofPositional, x.ofDecimal_shortest]
    · intro nonzero other rounded
      apply (Numeral.significantDigits_ofPositional_le _ _).trans
      exact Finite.length_digits_shortest_le nonzero rounded

/-- A tenth and two tenths add up to a sample that needs seventeen digits. -/
theorem numeral_of_text_seventeen :
    ∃ x : Finite, add (ofDecimal false 1 (-1)) (ofDecimal false 2 (-1)) = .finite x ∧
      x.isZero = false ∧ (finite x).text = "0.30000000000000004".toList ∧
      ∀ other : Numeral, other.toSample = .finite x → 17 ≤ other.significantDigits := by
  let x : Finite := ⟨false, 5404319552844596, 1020, by decide, by decide, .inr (by decide)⟩
  have nonzero : x.isZero = false := by decide
  have text : (finite x).text = "0.30000000000000004".toList := by decide +kernel
  obtain ⟨n, read, _, least⟩ := (numeral_of_text.1 x).2
  have digits : n = ⟨false, 30000000000000004, -17⟩ := by
    have value : Numeral.ofText? "0.30000000000000004".toList =
        some ⟨false, 30000000000000004, -17⟩ := by
      decide +kernel
    rw [text, value] at read
    exact (Option.some.inj read).symm
  have count : n.significantDigits = 17 := by
    rw [digits]
    decide +kernel
  refine ⟨x, by decide +kernel, nonzero, text, ?_⟩
  intro other rounded
  rw [← count]
  exact least nonzero other rounded

end Sample

end Rollup
