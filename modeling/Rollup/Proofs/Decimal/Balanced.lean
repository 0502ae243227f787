import Rollup.Proofs.Decimal.Numeral

/-!
Reading numerals with a fraction or an exponent. Main statement: they stand for the samples that
they were written for.
-/

namespace Rollup

namespace Sample

/-- A zero after the point changes nothing. -/
theorem ofDecimal_tenth (negative : Bool) (digits places : Nat) :
    ofDecimal negative (10 ^ places * digits * 10) (-1) = ofDecimal negative digits places := by
  have fraction : ¬ (0 : Int) ≤ -1 := by decide
  have scaled : 10 ^ places * digits * 10 * one = digits * 10 ^ places * one * 10 := by ring
  have tenth : 10 ^ (-(-1 : Int)).toNat = 1 * 10 := rfl
  rw [ofDecimal, if_neg fraction, scaled, tenth, ofRatio_mul_right (by decide), ofDecimal,
    if_pos (Int.natCast_nonneg places), Int.toNat_natCast]

/-- The sample that a word or a numeral stands for. -/
def ofText? (s : List Char) : Option Sample :=
  if s = "nan".toList then some missing
  else if s = "inf".toList then some (infinite false)
  else if s = "-inf".toList then some (infinite true)
  else (Numeral.ofText? s).map Numeral.toSample

end Sample

namespace Numeral

theorem isWhole_digit {c : Char} (digit : c.isDigit = true) : IsWhole [c] where
  some_digit := by simp
  digits := by simpa using digit
  leading := by simp

/-- A power of ten as it is written. -/
def powerText (power : Int) : List Char :=
  'e' :: (if power < 0 then '-' else '+') ::
    (Decimal.zeros (2 - (Nat.toDigits 10 power.natAbs).length) ++ Nat.toDigits 10 power.natAbs)

theorem readExponent_powerText (power : Int) :
    readExponent (powerText power) = some (power, []) := by
  have all : ∀ c ∈ Decimal.zeros (2 - (Nat.toDigits 10 power.natAbs).length) ++
      Nat.toDigits 10 power.natAbs, c.isDigit = true := by
    intro c member
    rcases List.mem_append.mp member with zero | digit
    · exact zeros_digits _ c zero
    · exact toDigits_digits c digit
  have read := @readDigits_append _ [] (by simp) all (by simp)
  have value : Nat.ofDigitChars 10 (Decimal.zeros (2 - (Nat.toDigits 10 power.natAbs).length) ++
      Nat.toDigits 10 power.natAbs) 0 = power.natAbs := by
    rw [Nat.ofDigitChars_append, Decimal.zeros, Nat.ofDigitChars_replicate_zero, Nat.mul_zero,
      Nat.ofDigitChars_ten_toDigits]
  rw [List.append_nil] at read
  simp only [powerText, readExponent, true_or, if_true]
  by_cases negative : power < 0
  · simp only [if_pos negative, readPower, read, Option.map_some, value]
    congr 2
    omega
  · simp only [if_neg negative, readPower, read, Option.map_some, value]
    congr 2
    omega

/-- Digits after a point, if there are any. -/
def fractionText (fraction : List Char) : List Char :=
  if fraction.isEmpty then [] else '.' :: fraction

theorem ofText?_powerText (negative : Bool) {c : Char} {fraction : List Char}
    (digits : ∀ d ∈ c :: fraction, d.isDigit = true) (power : Int) :
    ofText? (sign negative ++ ([c] ++ (fractionText fraction ++ powerText power))) =
      some ⟨negative, Nat.ofDigitChars 10 (c :: fraction) 0, power - fraction.length⟩ := by
  have first := isWhole_digit (digits c (by simp))
  have stop : ∀ d ∈ (powerText power).head?, d.isDigit = false := by simp [powerText]
  have fractional : readFraction (fractionText fraction ++ powerText power) =
      some (fraction, powerText power) := by
    cases fraction with
    | nil => rfl
    | cons d fraction =>
      exact readDigits_append (by simp) (fun e member => digits e (by simp [member])) stop
  have whole : readWhole ([c] ++ (fractionText fraction ++ powerText power)) =
      some ([c], fractionText fraction ++ powerText power) := by
    apply readWhole_append first
    cases fraction with
    | nil => exact stop
    | cons d fraction => simp [fractionText]
  simp only [ofText?, read, readSign_sign negative (head_not_sign first _), whole, fractional,
    readExponent_powerText, Option.bind_eq_bind, Option.bind_some, Option.pure_def]
  rfl

theorem exists_scientific (d : Decimal) :
    ∃ c fraction, Nat.toDigits 10 d.digits = c :: fraction ∧
      d.scientific = [c] ++ (fractionText fraction ++
        powerText (d.exponent + (fraction.length + 1 : Nat) - 1)) := by
  obtain ⟨c, fraction, digits⟩ := List.exists_cons_of_ne_nil (@Nat.toDigits_ne_nil d.digits 10)
  refine ⟨c, fraction, digits, ?_⟩
  simp [Decimal.scientific, digits, powerText, fractionText, List.append_assoc]

/-- One digit before the point leaves as many places after it as the power grew by. -/
theorem ofText?_scientific (negative : Bool) (d : Decimal) :
    ofText? (sign negative ++ d.scientific) = some ⟨negative, d.digits, d.exponent⟩ := by
  obtain ⟨c, fraction, digits, text⟩ := exists_scientific d
  have all : ∀ c ∈ Nat.toDigits 10 d.digits, c.isDigit = true := fun c => toDigits_digits c
  have value : Nat.ofDigitChars 10 (Nat.toDigits 10 d.digits) 0 = d.digits :=
    Nat.ofDigitChars_ten_toDigits
  have exponent : d.exponent + (fraction.length + 1 : Nat) - 1 - fraction.length = d.exponent := by
    omega
  rw [digits] at all value
  rw [text, ofText?_powerText negative all, value, exponent]

theorem ofText?_balanced (negative : Bool) {d : Decimal} (form : 0 < d.digits ∨ d.exponent ≤ 0) :
    ∃ n, ofText? (sign negative ++ d.balanced) = some n ∧
      n.toSample = Sample.ofDecimal negative d.digits d.exponent := by
  simp only [Decimal.balanced]
  split
  · split
    · next whole =>
      obtain ⟨places, exponent⟩ := Int.eq_ofNat_of_zero_le whole
      have written := isWhole_zeros places (form.imp_right fun low => by omega)
      have digit : ∀ c ∈ ['0'], c.isDigit = true := by
        intro c member
        rw [List.mem_singleton.mp member]
        rfl
      have read := read_fraction negative written (List.cons_ne_nil '0' []) digit ends_nil
      have value : Nat.ofDigitChars 10 (Nat.toDigits 10 d.digits ++ Decimal.zeros places ++ ['0'])
          0 = 10 ^ places * d.digits * 10 := by
        rw [Nat.ofDigitChars_append, Nat.ofDigitChars_append, Nat.ofDigitChars_ten_toDigits,
          Decimal.zeros, Nat.ofDigitChars_replicate_zero]
        simp [Nat.ofDigitChars, Nat.mul_comm]
      rw [List.append_nil] at read
      rw [positional_of_whole exponent, ofText?]
      have text : ".0".toList = '.' :: ['0'] := rfl
      rw [text, read, exponent]
      refine ⟨_, rfl, ?_⟩
      rw [toSample, value]
      exact Sample.ofDecimal_tenth negative d.digits places
    · exact ⟨_, ofText?_positional negative form, toSample_ofPositional negative d⟩
  · exact ⟨_, ofText?_scientific negative d, rfl⟩

/-- The characters of an exponent stand above the mark of a line's end. -/
def isPowerMark (c : Char) : Bool := isMark c || c == 'e' || c == '+'

theorem isPowerMark_of_isMark {c : Char} (mark : isMark c = true) : isPowerMark c = true := by
  simp [isPowerMark, mark]

theorem powerText_marks (power : Int) : ∀ c ∈ powerText power, isPowerMark c = true := by
  intro c member
  have digit (inside : c.isDigit = true) := isPowerMark_of_isMark (isMark_of_isDigit inside)
  simp only [powerText, List.mem_cons, List.mem_append] at member
  rcases member with rfl | rfl | zero | last
  · rfl
  · split <;> rfl
  · exact digit (zeros_digits _ c zero)
  · exact digit (toDigits_digits c last)

theorem balanced_marks (d : Decimal) : ∀ c ∈ d.balanced, isPowerMark c = true := by
  intro c member
  simp only [Decimal.balanced] at member
  split at member
  · split at member
    · rcases List.mem_append.mp member with first | last
      · exact isPowerMark_of_isMark (positional_marks d c first)
      · have all : ".0".toList.all isPowerMark = true := by decide
        exact List.all_eq_true.mp all c last
    · exact isPowerMark_of_isMark (positional_marks d c member)
  · obtain ⟨first, fraction, digits, text⟩ := exists_scientific d
    have all : ∀ c ∈ first :: fraction, isPowerMark c = true := by
      intro c inside
      rw [← digits] at inside
      exact isPowerMark_of_isMark (isMark_of_isDigit (toDigits_digits c inside))
    rw [text] at member
    rcases List.mem_append.mp member with one | later
    · exact all c (by simp [List.mem_singleton.mp one])
    · rcases List.mem_append.mp later with places | power
      · cases fraction with
        | nil => simp [fractionText] at places
        | cons d fraction =>
          rcases List.mem_cons.mp places with rfl | place
          · rfl
          · exact all c (List.mem_cons_of_mem _ place)
      · exact powerText_marks _ c power

theorem isPowerMark_bounds {c : Char} (mark : isPowerMark c = true) :
    0x2b ≤ c.toNat ∧ c.toNat ≤ 0x65 := by
  simp only [isPowerMark, Bool.or_eq_true, beq_iff_eq] at mark
  rcases mark with (mark | rfl) | rfl
  · have := isMark_bounds mark
    omega
  · decide
  · decide

end Numeral

theorem Sample.ofText?_balancedText (x : Sample) : Sample.ofText? x.balancedText = some x := by
  cases x with
  | missing => rfl
  | infinite negative => cases negative <;> rfl
  | finite x =>
    obtain ⟨n, read, value⟩ := Numeral.ofText?_balanced x.negative (Numeral.shortest_form x)
    rw [x.ofDecimal_shortest] at value
    have other {word : List Char} (no_numeral : Numeral.ofText? word = none) :
        (Sample.finite x).balancedText ≠ word := by
      rintro rfl
      change Numeral.ofText? (Sample.finite x).balancedText = none at no_numeral
      have : (none : Option Numeral) = some n := no_numeral.symm.trans read
      cases this
    rw [Sample.ofText?, if_neg (other (by decide)), if_neg (other (by decide)),
      if_neg (other (by decide))]
    change (Numeral.ofText? (sign x.negative ++ x.shortest.balanced)).map Numeral.toSample = _
    rw [read, Option.map_some, value]

end Rollup
