import Rollup.Decimal.Layout

/-!
The Gregorian calendar, extended over all years and with a year 0, and dates as counts of days.
Years are taken to start in March, so that a leap day ends its year. Main statement: a date denotes
the day that it was made from.
-/

namespace Rollup.Time

structure Date where
  year : Int
  month : Nat
  day : Nat
  deriving DecidableEq, Repr

/-- Days from the first of March of year 0 to the start of 1970. -/
def epoch : Int := 719468

/-- Days in 400, 100 and 4 years; the first of these ends in a leap day, the second mostly not. -/
def cycleDays : Nat := 146097

def centuryDays : Nat := 36524

def quadDays : Nat := 1461

namespace Date

/-- Days before a month, counted from March as month 0. -/
def daysBefore (month : Nat) : Nat := (153 * month + 2) / 5

/-- The date of a day of a year of a 400-year cycle, both counted from March. -/
def ofMarch (cycle : Int) (year day : Nat) : Date :=
  let month := (5 * day + 2) / 153
  let late := 10 ≤ month
  { year := 400 * cycle + year + (if late then 1 else 0)
    month := if late then month - 9 else month + 3
    day := day - daysBefore month + 1 }

/-- The date a number of days after the start of 1970. The last year of a leap period has a day
more than its share, hence the bounds of three. -/
def ofDays (days : Int) : Date :=
  let shifted := days + epoch
  let inCycle := (shifted % cycleDays).toNat
  let century := min (inCycle / centuryDays) 3
  let inCentury := inCycle - centuryDays * century
  let quad := inCentury / quadDays
  let inQuad := inCentury % quadDays
  let year := min (inQuad / 365) 3
  ofMarch (shifted / cycleDays) (100 * century + 4 * quad + year) (inQuad - 365 * year)

/-- The days from the start of 1970 to a date. -/
def toDays (d : Date) : Int :=
  let early := d.month ≤ 2
  let year := d.year - (if early then 1 else 0)
  let month := if early then d.month + 9 else d.month - 3
  let inCycle := (year % 400).toNat
  let days := 365 * inCycle + inCycle / 4 - inCycle / 100 + daysBefore month + (d.day - 1)
  cycleDays * (year / 400) + days - epoch

theorem toDays_ofMarch (cycle : Int) (year day : Nat) (inCycle : year < 400) (inYear : day ≤ 365) :
    (ofMarch cycle year day).toDays =
      cycleDays * cycle + (365 * year + year / 4 - year / 100 + day : Nat) - epoch := by
  simp only [toDays, ofMarch, daysBefore, cycleDays]
  by_cases late : 10 ≤ (5 * day + 2) / 153
  · have early : (5 * day + 2) / 153 - 9 ≤ 2 := by omega
    have back : (5 * day + 2) / 153 - 9 + 9 = (5 * day + 2) / 153 := by omega
    simp only [late, early, back, if_true]
    omega
  · have early : ¬ (5 * day + 2) / 153 + 3 ≤ 2 := by omega
    have back : (5 * day + 2) / 153 + 3 - 3 = (5 * day + 2) / 153 := by omega
    simp only [late, early, back, if_false]
    omega

theorem toDays_ofDays (days : Int) : (ofDays days).toDays = days := by
  simp only [ofDays, centuryDays, quadDays]
  have cycle : ((days + epoch) % cycleDays).toNat < 146097 := by
    simp only [cycleDays]
    omega
  have whole : cycleDays * ((days + epoch) / cycleDays) + ((days + epoch) % cycleDays).toNat =
      days + epoch := by
    simp only [cycleDays]
    omega
  generalize (days + epoch) / cycleDays = cycles at *
  generalize ((days + epoch) % cycleDays).toNat = inCycle at *
  generalize centuries : min (inCycle / 36524) 3 = century at *
  generalize rest : inCycle - 36524 * century = inCentury at *
  generalize years : min (inCentury % 1461 / 365) 3 = year at *
  have parts : inCentury / 1461 ≤ 24 := by omega
  rw [toDays_ofMarch _ _ _ (by omega) (by omega)]
  have quads : (100 * century + 4 * (inCentury / 1461) + year) / 4 =
      25 * century + inCentury / 1461 := by omega
  have hundreds : (100 * century + 4 * (inCentury / 1461) + year) / 100 = century := by omega
  rw [quads, hundreds]
  omega

end Date

structure DateTime where
  date : Date
  hour : Nat
  minute : Nat
  second : Nat
  deriving DecidableEq, Repr

namespace DateTime

def ofSeconds (seconds : Int) : DateTime :=
  let inDay := (seconds % 86400).toNat
  ⟨.ofDays (seconds / 86400), inDay / 3600, inDay / 60 % 60, inDay % 60⟩

def toSeconds (t : DateTime) : Int :=
  86400 * t.date.toDays + (3600 * t.hour + 60 * t.minute + t.second : Nat)

theorem toSeconds_ofSeconds (seconds : Int) : (ofSeconds seconds).toSeconds = seconds := by
  simp only [toSeconds, ofSeconds, Date.toDays_ofDays]
  omega

/-- Digits filled up with zeros to a width. -/
def padded (width n : Nat) : List Char :=
  let digits := Nat.toDigits 10 n
  Decimal.zeros (width - digits.length) ++ digits

/-- Four places, of which a minus sign takes one. -/
def yearText (year : Int) : List Char :=
  if year < 0 then '-' :: padded 3 year.natAbs else padded 4 year.natAbs

/-- `YYYY-MM-DD HH:MM:SS`. -/
def text (t : DateTime) : List Char :=
  yearText t.date.year ++ '-' :: padded 2 t.date.month ++ '-' :: padded 2 t.date.day ++
    ' ' :: padded 2 t.hour ++ ':' :: padded 2 t.minute ++ ':' :: padded 2 t.second

end DateTime

end Rollup.Time
