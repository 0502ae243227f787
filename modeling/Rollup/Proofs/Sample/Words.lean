import Rollup.Proofs.Sample.Rounding
import Rollup.Sample.Basic

/-!
Samples and their words. Main statements: a 64-bit word stands for the sample that it was made
from, and a 32-bit word for the closest number with 24 significant digits.
-/

namespace Rollup

namespace Sample

namespace ofBits

theorem fraction_lt (word : Nat) : word % 2 ^ 52 < 2 ^ 53 := by omega

theorem significand_lt (word : Nat) : 2 ^ 52 + word % 2 ^ 52 < 2 ^ 53 := by omega

theorem least_exponent : 0 ≤ 2045 := Nat.zero_le 2045

theorem exponent_le {word : Nat} (finite : word / 2 ^ 52 % 2 ^ 11 ≠ 2047) :
    word / 2 ^ 52 % 2 ^ 11 - 1 ≤ 2045 := by
  omega

theorem subnormal (word : Nat) : 0 = 0 ∨ 2 ^ 52 ≤ word % 2 ^ 52 := .inl rfl

theorem normal (word : Nat) :
    word / 2 ^ 52 % 2 ^ 11 - 1 = 0 ∨ 2 ^ 52 ≤ 2 ^ 52 + word % 2 ^ 52 :=
  .inr (Nat.le_add_right _ _)

end ofBits

/-- The sample of a 64-bit word: a sign, an exponent of eleven bits and a fraction. -/
def ofBits (word : Nat) : Sample :=
  let negative : Bool := 2 ^ 63 ≤ word
  if full : word / 2 ^ 52 % 2 ^ 11 = 2047 then
    if word % 2 ^ 52 = 0 then infinite negative else missing
  else if word / 2 ^ 52 % 2 ^ 11 = 0 then
    finite ⟨negative, word % 2 ^ 52, 0, ofBits.fraction_lt word, ofBits.least_exponent,
      ofBits.subnormal word⟩
  else
    finite ⟨negative, 2 ^ 52 + word % 2 ^ 52, word / 2 ^ 52 % 2 ^ 11 - 1,
      ofBits.significand_lt word, ofBits.exponent_le full, ofBits.normal word⟩

theorem bits_lt (x : Sample) : x.bits < 2 ^ 64 := by
  cases x with
  | missing => decide
  | infinite negative => cases negative <;> decide
  | finite x =>
    have small := x.significand_lt
    have low := x.exponent_le
    simp only [bits, bits.signBit]
    split <;> omega

/-- A sign, an exponent and a fraction are read from the word that they make up. -/
theorem word_parts {negative : Bool} {low high top exponent fraction word : Nat}
    (sign : top = 2 ^ low * 2 ^ high) (small : fraction < 2 ^ low) (short : exponent < 2 ^ high)
    (parts : word = (if negative then top else 0) + exponent * 2 ^ low + fraction) :
    decide (top ≤ word) = negative ∧ word / 2 ^ low % 2 ^ high = exponent ∧
      word % 2 ^ low = fraction := by
  have unit : 0 < 2 ^ low := Nat.two_pow_pos low
  have inside : exponent * 2 ^ low + fraction < top := by
    calc
      exponent * 2 ^ low + fraction < exponent * 2 ^ low + 2 ^ low := by omega
      _ = (exponent + 1) * 2 ^ low := by ring
      _ ≤ 2 ^ high * 2 ^ low := Nat.mul_le_mul_right _ short
      _ = top := by rw [sign, Nat.mul_comm]
  have whole : word = fraction + 2 ^ low * ((if negative then 2 ^ high else 0) + exponent) := by
    rw [parts, sign]
    cases negative <;> simp only [Bool.false_eq_true, if_false, if_true] <;> ring
  constructor
  · cases negative
    · simp only [Bool.false_eq_true, if_false] at parts
      exact decide_eq_false (by omega)
    · simp only [if_true] at parts
      exact decide_eq_true (by omega)
  · rw [whole, Nat.add_mul_div_left _ _ unit, Nat.div_eq_of_lt small, Nat.zero_add,
      Nat.add_mul_mod_self_left, Nat.mod_eq_of_lt small]
    constructor
    · cases negative
      · simp only [Bool.false_eq_true, if_false, Nat.zero_add]
        exact Nat.mod_eq_of_lt short
      · simp only [if_true, Nat.add_mod_left]
        exact Nat.mod_eq_of_lt short
    · rfl

/-- All words of missing samples stand for the one missing sample. -/
theorem ofBits_bits (x : Sample) : ofBits x.bits = x := by
  cases x with
  | missing => decide +kernel
  | infinite negative => cases negative <;> decide +kernel
  | finite x =>
    obtain ⟨negative, significand, exponent, small, low, normal⟩ := x
    have top : 2 ^ 63 = 2 ^ 52 * 2 ^ 11 := by decide
    by_cases full : 2 ^ 52 ≤ significand
    · obtain ⟨sign, middle, last⟩ :=
        @word_parts negative 52 11 _ (exponent + 1) (significand - 2 ^ 52)
          (finite ⟨negative, significand, exponent, small, low, normal⟩).bits
          top (by omega) (by omega) (by simp only [bits, bits.signBit]; omega)
      have significant : 2 ^ 52 + (significand - 2 ^ 52) = significand := by omega
      have finite_word : exponent + 1 ≠ 2047 := by omega
      simp only [ofBits, sign, middle, last, significant, finite_word, dif_neg, Nat.succ_ne_zero,
        if_false, Nat.add_sub_cancel, not_false_eq_true]
    · have least : exponent = 0 := by omega
      subst least
      obtain ⟨sign, middle, last⟩ :=
        @word_parts negative 52 11 _ 0 significand
          (finite ⟨negative, significand, 0, small, low, normal⟩).bits
          top (by omega) (by omega) rfl
      simp [ofBits, sign, middle, last]

end Sample

/-- A number with 24 significant digits, in units of `2 ^ -149`, or a value that is none. -/
inductive Single where
  | missing
  | infinite (negative : Bool)
  | finite (negative : Bool) (b : Binary)
  deriving DecidableEq

namespace Single

/-- The value of a 32-bit word: a sign, an exponent of eight bits and a fraction. -/
def ofBits (word : Nat) : Single :=
  let negative : Bool := 2 ^ 31 ≤ word
  let exponent := word / 2 ^ 23 % 2 ^ 8
  let fraction := word % 2 ^ 23
  if exponent = 255 then if fraction = 0 then infinite negative else missing
  else if exponent = 0 then finite negative ⟨fraction, 0⟩
  else finite negative ⟨2 ^ 23 + fraction, exponent - 1⟩

/-- The value is the sample rounded to 24 significant digits, or infinite if the rounded number
is `2 ^ 128` or more. -/
def IsNarrowed : Sample → Single → Prop
  | .missing, y => y = missing
  | .infinite negative, y => y = infinite negative
  | .finite x, y => ∃ b : Binary, b.IsClosest 24 x.magnitude (2 ^ 925) ∧
      y = if b.exponent ≤ 253 then finite x.negative b else infinite x.negative

theorem singleBits_lt (x : Sample) : x.singleBits < 2 ^ 32 := by
  cases x with
  | missing => decide
  | infinite negative => cases negative <;> decide
  | finite x =>
    have small : (Binary.nearest 24 x.magnitude (2 ^ 925)).significand < 2 ^ 24 :=
      Binary.nearest_significand_lt (by decide)
    simp only [Sample.singleBits, Sample.singleBits.sign]
    generalize Binary.nearest 24 x.magnitude (2 ^ 925) = b at small ⊢
    split <;> split <;> omega

theorem ofBits_eq {negative : Bool} {exponent fraction word : Nat} (small : fraction < 2 ^ 23)
    (short : exponent < 2 ^ 8)
    (parts : word = Sample.singleBits.sign negative + exponent * 2 ^ 23 + fraction) :
    ofBits word =
      if exponent = 255 then if fraction = 0 then infinite negative else missing
      else if exponent = 0 then finite negative ⟨fraction, 0⟩
      else finite negative ⟨2 ^ 23 + fraction, exponent - 1⟩ := by
  have top : 2 ^ 31 = 2 ^ 23 * 2 ^ 8 := by decide
  obtain ⟨sign, middle, last⟩ := Sample.word_parts top small short parts
  simp only [ofBits, sign, middle, last]

theorem isNarrowed_ofBits (x : Sample) : IsNarrowed x (ofBits x.singleBits) := by
  cases x with
  | missing =>
    change ofBits Sample.missing.singleBits = missing
    decide
  | infinite negative =>
    change ofBits (Sample.infinite negative).singleBits = infinite negative
    cases negative <;> decide
  | finite x =>
    have small : (Binary.nearest 24 x.magnitude (2 ^ 925)).significand < 2 ^ 24 :=
      Binary.nearest_significand_lt (by decide)
    have normal : (Binary.nearest 24 x.magnitude (2 ^ 925)).exponent = 0 ∨
        2 ^ 23 ≤ (Binary.nearest 24 x.magnitude (2 ^ 925)).significand :=
      Binary.nearest_normal (by decide)
    have closest := (Binary.isNearest_nearest (by decide) (Nat.two_pow_pos 925)).isClosest
      (by decide) ⟨small, normal⟩
    refine ⟨_, closest, ?_⟩
    simp only [Sample.singleBits]
    generalize Binary.nearest 24 x.magnitude (2 ^ 925) = b at small normal ⊢
    obtain ⟨significand, exponent⟩ := b
    simp only at small normal ⊢
    by_cases large : 253 < exponent
    · rw [if_neg (by omega), if_neg (by omega)]
      exact @ofBits_eq x.negative 255 0 _ (by decide) (by decide) rfl
    · rw [if_pos (by omega), if_pos (by omega)]
      by_cases full : 2 ^ 23 ≤ significand
      · have significant : 2 ^ 23 + (significand - 2 ^ 23) = significand := by omega
        rw [@ofBits_eq x.negative (exponent + 1) (significand - 2 ^ 23) _ (by omega) (by omega)
          (by omega), if_neg (by omega), if_neg (by omega), significant, Nat.add_sub_cancel]
      · have least : exponent = 0 := by omega
        subst least
        rw [@ofBits_eq x.negative 0 significand _ (by omega) (by decide) (by omega),
          if_neg (by decide), if_pos rfl]

end Single

end Rollup
