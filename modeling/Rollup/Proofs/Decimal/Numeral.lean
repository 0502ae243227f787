import Mathlib.Data.List.Basic
import Rollup.Decimal.Layout
import Rollup.Sample.Text
import Rollup.Proofs.Decimal.ReadBack

/-!
Reading decimal numerals: a sign, digits without a leading zero, a fraction and an exponent, of
which only the digits before the point are required. Main statements: the texts of integers and of
finite samples are such numerals, and they stand for the same integers and samples.
-/

namespace Rollup

/-- What a numeral stands for: `± digits * 10 ^ exponent`. -/
structure Numeral where
  negative : Bool
  digits : Nat
  exponent : Int
  deriving DecidableEq

namespace Numeral

/-- The sample nearest to a numeral, ties to even. -/
def toSample (n : Numeral) : Sample := Sample.ofDecimal n.negative n.digits n.exponent

def ofInt (n : Int) : Numeral := ⟨n < 0, n.natAbs, 0⟩

def readSign : List Char → Bool × List Char
  | '-' :: rest => (true, rest)
  | s => (false, s)

/-- One digit or more. -/
def readDigits (s : List Char) : Option (List Char × List Char) :=
  if s.takeWhile Char.isDigit = [] then none
  else some (s.takeWhile Char.isDigit, s.dropWhile Char.isDigit)

/-- A zero starts no longer whole part. -/
def readWhole (s : List Char) : Option (List Char × List Char) :=
  match readDigits s with
  | none => none
  | some (digits, rest) =>
    if digits.head? = some '0' ∧ 1 < digits.length then none else some (digits, rest)

def readFraction : List Char → Option (List Char × List Char)
  | '.' :: rest => readDigits rest
  | s => some ([], s)

def readPower : List Char → Option (Int × List Char)
  | '-' :: rest => (readDigits rest).map fun (digits, rest) => (-Nat.ofDigitChars 10 digits 0, rest)
  | '+' :: rest => (readDigits rest).map fun (digits, rest) => (Nat.ofDigitChars 10 digits 0, rest)
  | rest => (readDigits rest).map fun (digits, rest) => (Nat.ofDigitChars 10 digits 0, rest)

def readExponent : List Char → Option (Int × List Char)
  | [] => some (0, [])
  | c :: rest => if c = 'e' ∨ c = 'E' then readPower rest else some (0, c :: rest)

/-- A numeral at the start of a text, and what follows it. -/
def read (s : List Char) : Option (Numeral × List Char) := do
  let (negative, s) := readSign s
  let (whole, s) ← readWhole s
  let (fraction, s) ← readFraction s
  let (power, s) ← readExponent s
  return (⟨negative, Nat.ofDigitChars 10 (whole ++ fraction) 0, power - fraction.length⟩, s)

/-- The numeral that a text is, if it is one. -/
def ofText? (s : List Char) : Option Numeral :=
  match read s with
  | some (n, []) => some n
  | _ => none

/-- Text that does not go on a numeral before it. -/
def Ends (rest : List Char) : Prop :=
  ∀ c ∈ rest.head?, c.isDigit = false ∧ c ≠ '.' ∧ c ≠ 'e' ∧ c ≠ 'E'

variable {digits rest whole fraction : List Char}

theorem ends_nil : Ends [] := by simp [Ends]

theorem readDigits_append (some_digit : digits ≠ []) (all : ∀ c ∈ digits, c.isDigit = true)
    (stop : ∀ c ∈ rest.head?, c.isDigit = false) :
    readDigits (digits ++ rest) = some (digits, rest) := by
  have none_taken : rest.takeWhile Char.isDigit = [] := by
    cases rest with
    | nil => rfl
    | cons c rest => simp [stop c (by simp)]
  have none_dropped : rest.dropWhile Char.isDigit = rest := by
    cases rest with
    | nil => rfl
    | cons c rest => simp [stop c (by simp)]
  simp only [readDigits, List.takeWhile_append_of_pos all, List.dropWhile_append_of_pos all,
    none_taken, none_dropped, List.append_nil]
  rw [if_neg some_digit]

/-- A whole part as written: digits, and a zero first only alone. -/
structure IsWhole (whole : List Char) : Prop where
  some_digit : whole ≠ []
  digits : ∀ c ∈ whole, c.isDigit = true
  leading : whole.head? = some '0' → whole.length = 1

theorem readWhole_append (written : IsWhole whole) (stop : ∀ c ∈ rest.head?, c.isDigit = false) :
    readWhole (whole ++ rest) = some (whole, rest) := by
  rw [readWhole, readDigits_append written.some_digit written.digits stop]
  simp only
  rw [if_neg]
  rintro ⟨zero, long⟩
  have := written.leading zero
  omega

theorem readSign_sign (negative : Bool) (first : ∀ c ∈ rest.head?, c ≠ '-') :
    readSign (sign negative ++ rest) = (negative, rest) := by
  cases negative with
  | true => rfl
  | false =>
    cases rest with
    | nil => rfl
    | cons c rest =>
      have other := first c (by simp)
      simp only [sign, Bool.false_eq_true, if_false, List.nil_append, readSign]
      split
      · next same =>
        cases same
        exact absurd rfl other
      · rfl

theorem readExponent_of_ends (ends : Ends rest) : readExponent rest = some (0, rest) := by
  cases rest with
  | nil => rfl
  | cons c rest =>
    obtain ⟨_, _, lower, upper⟩ := ends c (by simp)
    simp [readExponent, lower, upper]

theorem readFraction_of_ends (ends : Ends rest) : readFraction rest = some ([], rest) := by
  cases rest with
  | nil => rfl
  | cons c rest =>
    obtain ⟨_, point, _, _⟩ := ends c (by simp)
    simp only [readFraction]
    split
    · next same =>
      cases same
      exact absurd rfl point
    · rfl

theorem head_not_sign (written : IsWhole whole) (more : List Char) :
    ∀ c ∈ (whole ++ more).head?, c ≠ '-' := by
  intro c first
  obtain ⟨d, others, rfl⟩ := List.exists_cons_of_ne_nil written.some_digit
  have digit := written.digits d (by simp)
  cases first
  rintro rfl
  exact absurd digit (by decide)

theorem read_whole (negative : Bool) (written : IsWhole whole) (ends : Ends rest) :
    read (sign negative ++ whole ++ rest) =
      some (⟨negative, Nat.ofDigitChars 10 whole 0, 0⟩, rest) := by
  have stop : ∀ c ∈ rest.head?, c.isDigit = false := by
    intro c first
    exact (ends c first).1
  simp [read, List.append_assoc, readSign_sign negative (head_not_sign written rest),
    readWhole_append written stop, readFraction_of_ends ends, readExponent_of_ends ends]

theorem read_fraction (negative : Bool) (written : IsWhole whole) (some_digit : fraction ≠ [])
    (all : ∀ c ∈ fraction, c.isDigit = true) (ends : Ends rest) :
    read (sign negative ++ (whole ++ '.' :: fraction) ++ rest) =
      some (⟨negative, Nat.ofDigitChars 10 (whole ++ fraction) 0, -fraction.length⟩, rest) := by
  have stop : ∀ c ∈ rest.head?, c.isDigit = false := by
    intro c first
    exact (ends c first).1
  have point : ∀ c ∈ ('.' :: (fraction ++ rest)).head?, c.isDigit = false := by simp
  have after := readDigits_append some_digit all stop
  simp [read, List.append_assoc, readSign_sign negative (head_not_sign written _),
    readWhole_append written point, readFraction, after, readExponent_of_ends ends]

theorem toDigits_digits {n : Nat} : ∀ c ∈ Nat.toDigits 10 n, c.isDigit = true := by
  intro c member
  exact Nat.isDigit_of_mem_toDigits (by decide) (by decide) member

theorem digitChar_ne_zero {d : Nat} (small : d < 10) (positive : d ≠ 0) : d.digitChar ≠ '0' := by
  intro zero
  have value := Nat.toNat_digitChar_sub_48_of_lt_ten small
  rw [zero] at value
  exact positive value.symm

theorem head?_toDigits {n : Nat} (positive : 0 < n) : (Nat.toDigits 10 n).head? ≠ some '0' := by
  induction n using Nat.strongRecOn with
  | ind n ih =>
    by_cases small : n < 10
    · rw [Nat.toDigits_of_lt_base small]
      intro zero
      exact digitChar_ne_zero small (by omega) (by simpa using zero)
    · rw [Nat.toDigits_of_base_le (by decide) (by omega),
        List.head?_append_of_ne_nil _ Nat.toDigits_ne_nil]
      exact ih (n / 10) (by omega) (by omega)

theorem isWhole_toDigits_append {n : Nat} (positive : 0 < n)
    (all : ∀ c ∈ digits, c.isDigit = true) : IsWhole (Nat.toDigits 10 n ++ digits) where
  some_digit := by simp
  digits := by
    intro c member
    rcases List.mem_append.mp member with first | second
    · exact toDigits_digits c first
    · exact all c second
  leading := by
    intro zero
    rw [List.head?_append_of_ne_nil _ Nat.toDigits_ne_nil] at zero
    exact absurd zero (head?_toDigits positive)

theorem isWhole_toDigits (n : Nat) : IsWhole (Nat.toDigits 10 n) := by
  rcases Nat.eq_zero_or_pos n with rfl | positive
  · exact ⟨by simp, toDigits_digits, by simp⟩
  · have written : IsWhole (Nat.toDigits 10 n ++ []) :=
      isWhole_toDigits_append positive (by simp)
    simpa using written

theorem toList_toString (n : Int) :
    (toString n).toList = sign (n < 0) ++ Nat.toDigits 10 n.natAbs := by
  cases n with
  | ofNat m => simp [Int.toString_eq_repr, Int.repr, sign, Nat.toList_repr]
  | negSucc m => simp [Int.toString_eq_repr, Int.repr, sign, Nat.toList_repr]

/-- A written integer stands for itself. -/
theorem read_integer (n : Int) (ends : Ends rest) :
    read ((toString n).toList ++ rest) = some (ofInt n, rest) := by
  rw [toList_toString, read_whole _ (isWhole_toDigits _) ends, Nat.ofDigitChars_ten_toDigits]
  rfl

theorem ofDecimal_shift (negative : Bool) (digits places : Nat) :
    Sample.ofDecimal negative (10 ^ places * digits) 0 =
      Sample.ofDecimal negative digits places := by
  simp only [Sample.ofDecimal]
  rw [if_pos (Int.le_refl 0), if_pos (Int.natCast_nonneg places), Int.toNat_natCast,
    Int.toNat_zero, Nat.pow_zero, Nat.mul_one, Nat.mul_comm digits]

theorem zeros_digits (n : Nat) : ∀ c ∈ Decimal.zeros n, c.isDigit = true := by
  intro c member
  rw [List.eq_of_mem_replicate member]
  rfl

/-- The digits of a number with zeros before them, so that more digits are there than places after
the point. -/
def padded (places n : Nat) : List Char :=
  Decimal.zeros (places + 1 - (Nat.toDigits 10 n).length) ++ Nat.toDigits 10 n

theorem padded_digits (places n : Nat) : ∀ c ∈ padded places n, c.isDigit = true := by
  intro c member
  rcases List.mem_append.mp member with first | second
  · exact zeros_digits _ c first
  · exact toDigits_digits c second

theorem length_padded (places n : Nat) :
    (padded places n).length = max (places + 1) (Nat.toDigits 10 n).length := by
  rw [padded, List.length_append, Decimal.zeros, List.length_replicate]
  omega

theorem ofDigitChars_padded (places n : Nat) : Nat.ofDigitChars 10 (padded places n) 0 = n := by
  rw [padded, Nat.ofDigitChars_append, Decimal.zeros, Nat.ofDigitChars_replicate_zero, Nat.mul_zero,
    Nat.ofDigitChars_ten_toDigits]

def wholePart (places n : Nat) : List Char :=
  (padded places n).take ((padded places n).length - places)

def fractionPart (places n : Nat) : List Char :=
  (padded places n).drop ((padded places n).length - places)

theorem wholePart_append_fractionPart (places n : Nat) :
    wholePart places n ++ fractionPart places n = padded places n :=
  List.take_append_drop _ _

theorem length_fractionPart (places n : Nat) : (fractionPart places n).length = places := by
  have length := length_padded places n
  rw [fractionPart, List.length_drop]
  omega

/-- Before the point stand the first digits of the number, or a single zero. -/
theorem isWhole_wholePart (places n : Nat) : IsWhole (wholePart places n) where
  some_digit := by
    rw [← List.length_pos_iff, wholePart, List.length_take, length_padded]
    omega
  digits := by
    intro c member
    exact padded_digits places n c (List.mem_of_mem_take member)
  leading := by
    intro zero
    by_cases long : places + 1 < (Nat.toDigits 10 n).length
    · have none : Decimal.zeros (places + 1 - (Nat.toDigits 10 n).length) = [] := by
        rw [Nat.sub_eq_zero_of_le (by omega)]
        rfl
      have positive : 0 < n := by
        rcases Nat.eq_zero_or_pos n with rfl | positive
        · simp at long
        · exact positive
      rw [wholePart, padded, none, List.nil_append, List.head?_take, if_neg (by omega)] at zero
      exact absurd zero (head?_toDigits positive)
    · rw [wholePart, List.length_take, length_padded]
      omega

/-- A decimal has places after its point, or zeros before it. -/
theorem exponent_cases (d : Decimal) :
    (∃ places : Nat, 0 < places ∧ d.exponent = -places) ∨ ∃ places : Nat, d.exponent = places := by
  rcases lt_or_ge d.exponent 0 with fraction | whole
  · left
    refine ⟨d.exponent.natAbs, ?_, ?_⟩
    · omega
    · omega
  · right
    exact Int.eq_ofNat_of_zero_le whole

theorem positional_of_whole {d : Decimal} {places : Nat} (exponent : d.exponent = places) :
    d.positional = Nat.toDigits 10 d.digits ++ Decimal.zeros places := by
  simp [Decimal.positional, exponent]

theorem positional_of_fraction {d : Decimal} {places : Nat} (some_place : 0 < places)
    (exponent : d.exponent = -places) :
    d.positional = wholePart places d.digits ++ '.' :: fractionPart places d.digits := by
  have fraction : ¬ 0 ≤ d.exponent := by omega
  have count : (-d.exponent).toNat = places := by omega
  simp only [Decimal.positional, if_neg fraction, count]
  rfl

theorem isWhole_zeros {n : Nat} (places : Nat) (form : 0 < n ∨ places = 0) :
    IsWhole (Nat.toDigits 10 n ++ Decimal.zeros places) := by
  rcases Nat.eq_zero_or_pos n with rfl | positive
  · have zero : places = 0 := by omega
    rw [zero]
    exact isWhole_toDigits 0
  · exact isWhole_toDigits_append positive (zeros_digits _)

/-- What the positional text of a decimal stands for: a power of ten above one is written out. -/
def ofPositional (negative : Bool) (d : Decimal) : Numeral :=
  if 0 ≤ d.exponent then ⟨negative, 10 ^ d.exponent.toNat * d.digits, 0⟩
  else ⟨negative, d.digits, d.exponent⟩

theorem toSample_ofPositional (negative : Bool) (d : Decimal) :
    (ofPositional negative d).toSample = Sample.ofDecimal negative d.digits d.exponent := by
  rw [ofPositional]
  split
  · next whole =>
    have shifted := ofDecimal_shift negative d.digits d.exponent.toNat
    rwa [Int.toNat_of_nonneg whole] at shifted
  · rfl

/-- Zeros are put after a number without a fraction, and before one that is too short for its
own. -/
theorem read_positional (negative : Bool) {d : Decimal} (form : 0 < d.digits ∨ d.exponent ≤ 0)
    (ends : Ends rest) :
    read (sign negative ++ d.positional ++ rest) = some (ofPositional negative d, rest) := by
  rcases exponent_cases d with ⟨places, some_place, exponent⟩ | ⟨places, exponent⟩
  · have some_digit : fractionPart places d.digits ≠ [] := by
      rw [← List.length_pos_iff, length_fractionPart]
      exact some_place
    have all : ∀ c ∈ fractionPart places d.digits, c.isDigit = true := by
      intro c member
      exact padded_digits _ _ c (List.mem_of_mem_drop member)
    have fraction : ¬ 0 ≤ d.exponent := by omega
    rw [positional_of_fraction some_place exponent,
      read_fraction negative (isWhole_wholePart _ _) some_digit all ends,
      wholePart_append_fractionPart, ofDigitChars_padded, length_fractionPart, ← exponent,
      ofPositional, if_neg fraction]
  · have written := isWhole_zeros places (form.imp_right fun low => by omega)
    have whole : 0 ≤ d.exponent := by omega
    have count : d.exponent.toNat = places := by omega
    rw [positional_of_whole exponent, read_whole negative written ends, Nat.ofDigitChars_append,
      Nat.ofDigitChars_ten_toDigits, Decimal.zeros, Nat.ofDigitChars_replicate_zero,
      ofPositional, if_pos whole, count]

theorem shortest_form (x : Finite) : 0 < x.shortest.digits ∨ x.shortest.exponent ≤ 0 := by
  cases zero : x.isZero with
  | false => exact .inl (x.shortest_digits_pos zero)
  | true => simp [Finite.shortest, zero]

/-- The text of a finite sample stands for that sample. -/
theorem read_text (x : Finite) :
    ∃ n, (∀ rest, Ends rest → read ((Sample.finite x).text ++ rest) = some (n, rest)) ∧
      n.toSample = .finite x := by
  refine ⟨_, fun rest => read_positional x.negative (shortest_form x), ?_⟩
  rw [toSample_ofPositional, x.ofDecimal_shortest]

theorem ofText?_positional (negative : Bool) {d : Decimal}
    (form : 0 < d.digits ∨ d.exponent ≤ 0) :
    ofText? (sign negative ++ d.positional) = some (ofPositional negative d) := by
  have alone := read_positional negative form ends_nil
  rw [List.append_nil] at alone
  rw [ofText?, alone]

theorem ofText?_text (x : Finite) :
    ∃ n, ofText? (Sample.finite x).text = some n ∧ n.toSample = .finite x := by
  refine ⟨_, ofText?_positional x.negative (shortest_form x), ?_⟩
  rw [toSample_ofPositional, x.ofDecimal_shortest]

/-- The characters of integers and of finite samples. -/
def isMark (c : Char) : Bool := c.isDigit || c == '.' || c == '-'

theorem ne_of_isMark {c other : Char} (mark : isMark c = true) (no_mark : isMark other = false) :
    c ≠ other := by
  rintro rfl
  rw [no_mark] at mark
  cases mark

theorem isMark_bounds {c : Char} (mark : isMark c = true) :
    0x2d ≤ c.toNat ∧ c.toNat ≤ 0x39 := by
  simp only [isMark, Bool.or_eq_true, beq_iff_eq] at mark
  rcases mark with (digit | rfl) | rfl
  · simp only [Char.isDigit, Bool.and_eq_true, decide_eq_true_eq, ge_iff_le] at digit
    have low : 0x30 ≤ c.toNat := digit.1
    have high : c.toNat ≤ 0x39 := digit.2
    omega
  · decide
  · decide

theorem sign_marks (negative : Bool) : ∀ c ∈ sign negative, isMark c = true := by
  cases negative <;> simp [sign, isMark]

theorem isMark_of_isDigit {c : Char} (digit : c.isDigit = true) : isMark c = true := by
  simp [isMark, digit]

theorem integer_marks (n : Int) : ∀ c ∈ (toString n).toList, isMark c = true := by
  intro c member
  rw [toList_toString] at member
  rcases List.mem_append.mp member with first | second
  · exact sign_marks _ c first
  · exact isMark_of_isDigit (toDigits_digits c second)

theorem positional_marks (d : Decimal) : ∀ c ∈ d.positional, isMark c = true := by
  intro c member
  rcases exponent_cases d with ⟨places, some_place, exponent⟩ | ⟨places, exponent⟩
  · rw [positional_of_fraction some_place exponent] at member
    rcases List.mem_append.mp member with first | second
    · exact isMark_of_isDigit ((isWhole_wholePart _ _).digits c first)
    · rcases List.mem_cons.mp second with rfl | later
      · rfl
      · exact isMark_of_isDigit (padded_digits _ _ c (List.mem_of_mem_drop later))
  · rw [positional_of_whole exponent] at member
    rcases List.mem_append.mp member with first | second
    · exact isMark_of_isDigit (toDigits_digits c first)
    · exact isMark_of_isDigit (zeros_digits _ c second)

theorem text_marks (x : Finite) : ∀ c ∈ (Sample.finite x).text, isMark c = true := by
  intro c member
  rcases List.mem_append.mp member with first | second
  · exact sign_marks _ c first
  · exact positional_marks _ c second

end Numeral

end Rollup
