import Rollup.Sample.Basic

/-!
The shortest decimal numeral that rounds to a given sample. Grids of multiples of a power of ten
are tried from the coarsest down: the first that meets the reals rounding to the sample gives the
fewest digits, and of the two multiples around the value the nearer is taken.
-/

namespace Rollup

/-- The number `digits * 10 ^ exponent`. -/
structure Decimal where
  digits : Nat
  exponent : Int
  deriving DecidableEq, Repr

/-- The reals that round to a sample, in quarters of `2 ^ -1074`: from `low` to `high`, the ends
included if `closed`. -/
structure Interval where
  low : Nat
  value : Nat
  high : Nat
  closed : Bool
  deriving DecidableEq, Repr

/-- The ends lie half way to the neighbours; below a power of two the neighbours are twice as
close. Ties go to even significands, so those own their ends. -/
def Finite.interval (x : Finite) : Interval :=
  let m := x.significand
  let step := 2 ^ x.exponent
  { low := (if m = 2 ^ 52 ∧ 0 < x.exponent then 4 * m - 1 else 4 * m - 2) * step
    value := 4 * m * step
    high := (4 * m + 2) * step
    closed := m % 2 == 0 }

namespace Interval

/-- The quarter units in one. -/
def one : Nat := 4 * Sample.one

def contains (i : Interval) (n : Nat) : Bool :=
  if i.closed then i.low ≤ n && n ≤ i.high else i.low < n && n < i.high

/-- The same interval on a scale where `10 ^ exponent` is the returned whole number. -/
def scale (i : Interval) (exponent : Int) : Interval × Nat :=
  if 0 ≤ exponent then (i, one * 10 ^ exponent.toNat)
  else
    let k := 10 ^ (-exponent).toNat
    ({ i with low := i.low * k, value := i.value * k, high := i.high * k }, one)

/-- The multiple of `10 ^ exponent` inside the interval that is nearest to the value, a tie going
to the even one. -/
def onGrid (i : Interval) (exponent : Int) : Option Nat :=
  let (scaled, unit) := i.scale exponent
  let below := scaled.value / unit
  let rest := scaled.value % unit
  match scaled.contains (below * unit), scaled.contains ((below + 1) * unit) with
  | true, true =>
    some (if 2 * rest < unit then below
      else if unit < 2 * rest then below + 1
      else below + below % 2)
  | true, false => some below
  | false, true => some (below + 1)
  | false, false => none

/-- The first hit on the grids from `10 ^ exponent` down. -/
def shortestFrom (i : Interval) : Nat → Int → Decimal
  | 0, exponent => ⟨(i.scale exponent).1.value / (i.scale exponent).2, exponent⟩
  | grids + 1, exponent =>
    match i.onGrid exponent with
    | some digits => ⟨digits, exponent⟩
    | none => shortestFrom i grids (exponent - 1)

end Interval

/-- A power of ten above the sample: `log₁₀ 2` is close below 0.30103. -/
def Finite.decade (x : Finite) : Int := ((x.exponent : Int) - 1021) * 30103 / 100000 + 2

/-- The shortest numeral for a sample's distance from zero. Twenty-four grids reach from a power
of ten above the sample to one below the width of its interval. -/
def Finite.shortest (x : Finite) : Decimal :=
  if x.isZero then ⟨0, 0⟩ else x.interval.shortestFrom 24 x.decade

end Rollup
