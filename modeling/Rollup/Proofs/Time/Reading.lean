import Rollup.Proofs.Decimal.Numeral
import Rollup.Proofs.Time.Gregorian

/-!
Reading dates with a time of day. Main statements: a written date and time is read as itself, and
stands at the second that it was made from, and at no other.
-/

namespace Rollup.Time

/-- Digits, with a minus sign before them in years before year 0. -/
def readYear (s : List Char) : Option (Int × List Char) :=
  let (negative, s) := Numeral.readSign s
  (Numeral.readDigits s).map fun (digits, rest) =>
    let year : Nat := Nat.ofDigitChars 10 digits 0
    (if negative then -year else year, rest)

/-- Two digits after a mark. -/
def readPart (mark : Char) : List Char → Option (Nat × List Char)
  | c :: tens :: ones :: rest =>
    if c = mark ∧ tens.isDigit ∧ ones.isDigit then
      some (Nat.ofDigitChars 10 [tens, ones] 0, rest)
    else none
  | _ => none

namespace DateTime

/-- The date and time that a text is, if it is one. -/
def ofText? (s : List Char) : Option DateTime := do
  let (year, s) ← readYear s
  let (month, s) ← readPart '-' s
  let (day, s) ← readPart '-' s
  let (hour, s) ← readPart ' ' s
  let (minute, s) ← readPart ':' s
  let (second, s) ← readPart ':' s
  if s.isEmpty then some ⟨⟨year, month, day⟩, hour, minute, second⟩ else none

/-- A time of some day, at a second from the start of 1970. -/
def IsAt (t : DateTime) (second : Int) : Prop :=
  ∃ days, t.date.HasNumber days ∧ t.hour < 24 ∧ t.minute < 60 ∧ t.second < 60 ∧
    second = 86400 * days + 3600 * t.hour + 60 * t.minute + t.second

theorem isAt_unique {t : DateTime} {first second : Int} (left : t.IsAt first)
    (right : t.IsAt second) : first = second := by
  obtain ⟨m, number, _, _, _, rfl⟩ := left
  obtain ⟨n, number', _, _, _, rfl⟩ := right
  rw [Date.hasNumber_iff] at number number'
  rw [← number.2, ← number'.2]

theorem isAt_ofSeconds (seconds : Int) : (ofSeconds seconds).IsAt seconds := by
  refine ⟨seconds / 86400, Date.hasNumber_ofDays _, ?_, ?_, ?_, ?_⟩
  all_goals
    simp only [ofSeconds]
    omega

variable {rest : List Char}

theorem padded_two {n : Nat} (small : n < 100) : ∃ tens ones, padded 2 n = [tens, ones] := by
  have digits : (Nat.toDigits 10 n).length ≤ 2 :=
    (Nat.length_toDigits_le_iff (by decide) (by decide)).mpr small
  have length : (padded 2 n).length = 2 := by
    change (Numeral.padded 1 n).length = 2
    rw [Numeral.length_padded]
    omega
  exact List.length_eq_two.mp length

theorem readPart_padded {n : Nat} (small : n < 100) (mark : Char) :
    readPart mark (mark :: (padded 2 n ++ rest)) = some (n, rest) := by
  obtain ⟨tens, ones, two⟩ := padded_two small
  have value : Nat.ofDigitChars 10 (padded 2 n) 0 = n := Numeral.ofDigitChars_padded 1 n
  have digits : ∀ c ∈ padded 2 n, c.isDigit = true := Numeral.padded_digits 1 n
  rw [two] at value digits ⊢
  have first := digits tens (by simp)
  have second := digits ones (by simp)
  simp [readPart, first, second, value]

theorem readYear_yearText (year : Int) (stop : ∀ c ∈ rest.head?, c.isDigit = false) :
    readYear (yearText year ++ rest) = some (year, rest) := by
  have some_digit (places n : Nat) : Numeral.padded places n ≠ [] := by
    rw [← List.length_pos_iff, Numeral.length_padded]
    omega
  have read (places n : Nat) := Numeral.readDigits_append (some_digit places n)
    (Numeral.padded_digits places n) stop
  by_cases negative : year < 0
  · have written : yearText year ++ rest = '-' :: (Numeral.padded 2 year.natAbs ++ rest) := by
      simp only [yearText, if_pos negative]
      rfl
    simp only [readYear, written, Numeral.readSign, read, Option.map_some,
      Numeral.ofDigitChars_padded, if_true]
    congr 2
    omega
  · have written : yearText year ++ rest = Numeral.padded 3 year.natAbs ++ rest := by
      simp only [yearText, if_neg negative]
      rfl
    have first : ∀ c ∈ (Numeral.padded 3 year.natAbs ++ rest).head?, c ≠ '-' := by
      intro c first
      rw [List.head?_append_of_ne_nil _ (some_digit _ _)] at first
      have digit := Numeral.padded_digits _ _ c (List.mem_of_mem_head? first)
      rintro rfl
      exact absurd digit (by decide)
    have plus : Numeral.readSign (Numeral.padded 3 year.natAbs ++ rest) =
        (false, Numeral.padded 3 year.natAbs ++ rest) :=
      Numeral.readSign_sign false first
    simp only [readYear, written, plus, read, Option.map_some, Numeral.ofDigitChars_padded]
    congr 2
    simp
    omega

theorem ofText?_text {t : DateTime} (valid : t.date.IsValid) (hour : t.hour < 24)
    (minute : t.minute < 60) (second : t.second < 60) : ofText? t.text = some t := by
  have month : t.date.month < 100 := by
    have := valid.last_month
    omega
  have day : t.date.day < 100 := by
    have := valid.last_day
    have := monthLength_le t.date.year t.date.month
    omega
  have year (rest : List Char) :
      readYear (yearText t.date.year ++ '-' :: rest) = some (t.date.year, '-' :: rest) :=
    readYear_yearText _ (by simp)
  have last := @readPart_padded [] _ (by omega : t.second < 100) ':'
  rw [List.append_nil] at last
  simp [ofText?, text, List.append_assoc, year, readPart_padded month, readPart_padded day,
    readPart_padded (by omega : t.hour < 100), readPart_padded (by omega : t.minute < 100), last]

end DateTime

end Rollup.Time
