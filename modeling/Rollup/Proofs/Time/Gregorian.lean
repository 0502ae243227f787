import Mathlib.Tactic.IntervalCases
import Rollup.Time.Calendar

/-!
The Gregorian calendar by its rules: the lengths of its months, and the day that follows each day.
Counting days from the first of January 1970 in both directions gives every date its number.
Main statement: the number of a date determines it, and is the one it was made from.
-/

namespace Rollup.Time

/-- Every fourth year is a leap year, but of the centuries only every fourth. -/
def IsLeap (year : Int) : Prop := year % 4 = 0 ∧ (year % 100 = 0 → year % 400 = 0)

instance (year : Int) : Decidable (IsLeap year) := inferInstanceAs (Decidable (_ ∧ _))

def monthLength (year : Int) (month : Nat) : Nat :=
  if month = 2 then if IsLeap year then 29 else 28
  else if month = 4 ∨ month = 6 ∨ month = 9 ∨ month = 11 then 30
  else 31

theorem le_monthLength (year : Int) (month : Nat) : 28 ≤ monthLength year month := by
  simp only [monthLength]
  split
  · split <;> decide
  · split <;> decide

theorem monthLength_le (year : Int) (month : Nat) : monthLength year month ≤ 31 := by
  simp only [monthLength]
  split
  · split <;> decide
  · split <;> decide

namespace Date

structure IsValid (d : Date) : Prop where
  some_month : 1 ≤ d.month
  last_month : d.month ≤ 12
  some_day : 1 ≤ d.day
  last_day : d.day ≤ monthLength d.year d.month

/-- The day after. -/
def next (d : Date) : Date :=
  if d.day < monthLength d.year d.month then { d with day := d.day + 1 }
  else if d.month < 12 then ⟨d.year, d.month + 1, 1⟩
  else ⟨d.year + 1, 1, 1⟩

/-- The number of a date, from the first of January 1970 as number 0. -/
inductive HasNumber : Date → Int → Prop
  | epoch : HasNumber ⟨1970, 1, 1⟩ 0
  | next {d : Date} {n : Int} : HasNumber d n → HasNumber d.next (n + 1)
  | previous {d : Date} {n : Int} : d.IsValid → HasNumber d.next n → HasNumber d (n - 1)

variable {d : Date} {n : Int}

theorem isValid_next (valid : d.IsValid) : d.next.IsValid := by
  obtain ⟨some_month, last_month, some_day, last_day⟩ := valid
  have long (year : Int) (month : Nat) : 1 ≤ monthLength year month :=
    Nat.le_trans (by decide) (le_monthLength year month)
  simp only [next]
  split
  · next inside => exact ⟨some_month, last_month, by simp, inside⟩
  · split
    · next inside => exact ⟨by simp, inside, by simp, long _ _⟩
    · exact ⟨by simp, by simp, by simp, long _ _⟩

theorem toDays_march (year : Int) :
    (Date.mk year 3 1).toDays = (Date.mk year 2 (monthLength year 2)).toDays + 1 := by
  by_cases leap : IsLeap year
  · have days : monthLength year 2 = 29 := by simp [monthLength, leap]
    obtain ⟨fourth, century⟩ := leap
    simp [toDays, daysBefore, cycleDays, days]
    omega
  · have days : monthLength year 2 = 28 := by simp [monthLength, leap]
    simp only [IsLeap, not_and] at leap
    simp [toDays, daysBefore, cycleDays, days]
    omega

theorem toDays_january (year : Int) :
    (Date.mk (year + 1) 1 1).toDays = (Date.mk year 12 (monthLength year 12)).toDays + 1 := by
  simp [toDays, daysBefore, cycleDays, monthLength]
  omega

theorem toDays_first {year : Int} {month : Nat} (some_month : 1 ≤ month) (inside : month < 12) :
    (Date.mk year (month + 1) 1).toDays =
      (Date.mk year month (monthLength year month)).toDays + 1 := by
  by_cases february : month = 2
  · rw [february]
    exact toDays_march year
  · interval_cases month
    all_goals
      simp [toDays, daysBefore, monthLength] at february ⊢
      try omega

theorem toDays_next (valid : d.IsValid) : d.next.toDays = d.toDays + 1 := by
  obtain ⟨year, month, day⟩ := d
  obtain ⟨some_month, last_month, some_day, last_day⟩ := valid
  simp only at some_month last_month some_day last_day
  simp only [next]
  split
  · simp only [toDays]
    omega
  · next last =>
    have full : day = monthLength year month := by omega
    subst full
    split
    · next inside => exact toDays_first some_month inside
    · next inside =>
      have december : month = 12 := by omega
      rw [december]
      exact toDays_january year

/-- A day of a year of a 400-year cycle, both counted from March: a leap day ends its year. -/
structure IsMarchDay (year day : Nat) : Prop where
  in_cycle : year < 400
  in_year : day ≤ 365
  leap : day = 365 → IsLeap (year + 1)

variable {year day : Nat}

theorem isValid_ofMarch (cycle : Int) (inside : IsMarchDay year day) :
    (ofMarch cycle year day).IsValid := by
  obtain ⟨in_cycle, in_year, leap⟩ := inside
  have months : (5 * day + 2) / 153 < 12 := by omega
  have lower : 153 * ((5 * day + 2) / 153) ≤ 5 * day + 2 := by omega
  have upper : 5 * day + 2 < 153 * ((5 * day + 2) / 153) + 153 := by omega
  simp only [ofMarch, daysBefore]
  generalize (5 * day + 2) / 153 = month at months lower upper
  by_cases february : month = 11
  · subst february
    refine ⟨by simp, by simp, by simp, ?_⟩
    by_cases last : day = 365
    · have long : IsLeap (400 * cycle + year + 1) := by
        obtain ⟨fourth, century⟩ := leap last
        constructor <;> omega
      simp [monthLength, long, last]
    · have short : day - 337 + 1 ≤ 28 := by omega
      exact Nat.le_trans short (le_monthLength _ _)
  · interval_cases month
    all_goals
      constructor <;> simp [monthLength] at february ⊢ <;> omega

theorem ofDays_march (cycle : Int) (inside : IsMarchDay year day) :
    ofDays (cycleDays * cycle + (365 * year + year / 4 - year / 100 + day : Nat) - epoch) =
      ofMarch cycle year day := by
  obtain ⟨in_cycle, in_year, leap⟩ := inside
  -- a leap day ends four years, and a hundred only with the cycle
  have fourth : day = 365 → year % 4 = 3 := by
    intro last
    have := (leap last).1
    omega
  have hundredth : day = 365 → year % 100 = 99 → year = 399 := by
    intro last century
    have := (leap last).2
    omega
  simp only [ofDays]
  have whole : (cycleDays * cycle + (365 * year + year / 4 - year / 100 + day : Nat) - epoch +
      epoch) / cycleDays = cycle := by
    simp only [cycleDays]
    omega
  have part : ((cycleDays * cycle + (365 * year + year / 4 - year / 100 + day : Nat) - epoch +
      epoch) % cycleDays).toNat = 365 * year + year / 4 - year / 100 + day := by
    simp only [cycleDays]
    omega
  rw [whole, part]
  simp only [centuryDays, quadDays]
  have century : min ((365 * year + year / 4 - year / 100 + day) / 36524) 3 = year / 100 := by
    omega
  rw [century]
  have quad : (365 * year + year / 4 - year / 100 + day - 36524 * (year / 100)) / 1461 =
      year % 100 / 4 := by
    omega
  have inQuad : (365 * year + year / 4 - year / 100 + day - 36524 * (year / 100)) % 1461 =
      365 * (year % 4) + day := by
    omega
  have last : min ((365 * (year % 4) + day) / 365) 3 = year % 4 := by omega
  rw [quad, inQuad, last]
  congr 1 <;> omega

/-- The months from March on, by the days before them. -/
theorem month_of_day {month day : Nat} (after : daysBefore month ≤ day)
    (before : day < daysBefore (month + 1)) : (5 * day + 2) / 153 = month := by
  simp only [daysBefore] at after before
  omega

theorem exists_march (valid : d.IsValid) :
    ∃ cycle year day, d = ofMarch cycle year day ∧ IsMarchDay year day := by
  obtain ⟨year, month, day⟩ := d
  obtain ⟨some_month, last_month, some_day, last_day⟩ := valid
  simp only at some_month last_month some_day last_day
  by_cases early : month ≤ 2
  · have short : day ≤ 31 ∧ (month = 2 → day ≤ 29 ∧ (day = 29 → IsLeap year)) := by
      simp only [monthLength] at last_day
      split at last_day
      · split at last_day
        · next leap => exact ⟨by omega, fun _ => ⟨last_day, fun _ => leap⟩⟩
        · exact ⟨by omega, fun _ => ⟨by omega, by omega⟩⟩
      · exact ⟨by split at last_day <;> omega, by omega⟩
    obtain ⟨month_end, february⟩ := short
    have inside : daysBefore (month + 9) + (day - 1) < daysBefore (month + 9 + 1) := by
      simp only [daysBefore]
      omega
    refine ⟨(year - 1) / 400, ((year - 1) % 400).toNat, daysBefore (month + 9) + (day - 1),
      ?_, by omega, ?_, ?_⟩
    · simp only [ofMarch, month_of_day (Nat.le_add_right _ _) inside]
      rw [if_pos (by omega), if_pos (by omega), Date.mk.injEq]
      omega
    · simp only [daysBefore]
      omega
    · intro last
      simp only [daysBefore] at last
      obtain ⟨fourth, century⟩ := (february (by omega)).2 (by omega)
      constructor <;> omega
  · have inside : daysBefore (month - 3) + (day - 1) < daysBefore (month - 3 + 1) := by
      interval_cases month
      all_goals
        simp [monthLength, daysBefore] at early last_day ⊢
        try omega
    have last : daysBefore (month - 3 + 1) ≤ 337 := by
      simp only [daysBefore]
      omega
    refine ⟨year / 400, (year % 400).toNat, daysBefore (month - 3) + (day - 1),
      ?_, by omega, by omega, by omega⟩
    simp only [ofMarch, month_of_day (Nat.le_add_right _ _) inside]
    rw [if_neg (by omega), if_neg (by omega), Date.mk.injEq]
    omega

/-- A date is made from its number. -/
theorem ofDays_toDays (valid : d.IsValid) : ofDays d.toDays = d := by
  obtain ⟨cycle, year, day, rfl, inside⟩ := exists_march valid
  rw [toDays_ofMarch cycle year day inside.in_cycle inside.in_year, ofDays_march cycle inside]

theorem isValid_ofDays (n : Int) : (ofDays n).IsValid := by
  simp only [ofDays, centuryDays, quadDays]
  have cycle : ((n + epoch) % cycleDays).toNat < 146097 := by
    simp only [cycleDays]
    omega
  generalize ((n + epoch) % cycleDays).toNat = inCycle at cycle ⊢
  generalize centuries : min (inCycle / 36524) 3 = century
  generalize rest : inCycle - 36524 * century = inCentury
  have quads : inCentury / 1461 ≤ 24 := by omega
  have days : inCentury % 1461 < 1461 := Nat.mod_lt _ (by decide)
  have split : inCentury = 1461 * (inCentury / 1461) + inCentury % 1461 := by omega
  generalize inCentury / 1461 = quad at quads split ⊢
  generalize inCentury % 1461 = inQuad at days split ⊢
  generalize years : min (inQuad / 365) 3 = year
  apply isValid_ofMarch
  refine ⟨by omega, by omega, ?_⟩
  intro last
  have final : year = 3 := by omega
  constructor
  · omega
  · omega

theorem next_ofDays (n : Int) : (ofDays n).next = ofDays (n + 1) := by
  have valid := isValid_ofDays n
  rw [← ofDays_toDays (isValid_next valid), toDays_next valid, toDays_ofDays]

theorem hasNumber_ofDays (n : Int) : HasNumber (ofDays n) n := by
  induction n using Int.induction_on with
  | zero => exact .epoch
  | succ n ih =>
    rw [← next_ofDays]
    exact ih.next
  | pred n ih =>
    apply HasNumber.previous (isValid_ofDays _)
    rwa [next_ofDays, Int.sub_add_cancel]

/-- Every valid date has one number. -/
theorem hasNumber_iff : HasNumber d n ↔ d.IsValid ∧ d.toDays = n := by
  constructor
  · intro number
    induction number with
    | epoch => exact ⟨isValid_ofDays 0, by decide⟩
    | next _ ih => exact ⟨isValid_next ih.1, by rw [toDays_next ih.1, ih.2]⟩
    | previous valid _ ih =>
      have after := toDays_next valid
      exact ⟨valid, by omega⟩
  · rintro ⟨valid, rfl⟩
    have made := hasNumber_ofDays d.toDays
    rwa [ofDays_toDays valid] at made

end Date

end Rollup.Time
