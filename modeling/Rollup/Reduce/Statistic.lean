import Rollup.Reduce.Summation

/-!
Statistics of a group of samples. Missing samples are left out, and a group without any other has
a missing statistic.
-/

namespace Rollup.Statistic

/-- The samples of a group that are not missing. -/
def present (xs : List Sample) : List Sample := xs.filter (!·.isMissing)

/-- A statistic of the samples present, if there are any. -/
def ofPresent (f : List Sample → Sample) (xs : List Sample) : Sample :=
  if (present xs).isEmpty then .missing else f (present xs)

def average (xs : List Sample) : Sample := Sample.div (Sample.sum xs) (Sample.ofNat xs.length)

def sorted (xs : List Sample) : List Sample := xs.mergeSort fun x y => x.key ≤ y.key

/-- The middle one or two of the sorted samples. -/
def middle (xs : List Sample) : List Sample :=
  ((sorted xs).drop ((xs.length - 1) / 2)).take (if xs.length % 2 = 0 then 2 else 1)

def squaredDeviations (xs : List Sample) : List Sample :=
  let m := average xs
  xs.map fun x => Sample.mul (Sample.sub x m) (Sample.sub x m)

def mean : List Sample → Sample := ofPresent average

/-- Zero for a missing sample, the largest finite one for an infinite one. -/
def zeroFilled : Sample → Sample
  | .missing => .zero
  | .infinite negative => .largest negative
  | .finite x => .finite x

/-- The mean over all samples of the group, the missing ones counted as zero. -/
def meanZero (xs : List Sample) : Sample :=
  if xs.isEmpty then .missing else average (xs.map zeroFilled)

def median : List Sample → Sample := ofPresent fun xs => average (middle xs)

def sum : List Sample → Sample := ofPresent Sample.sum

def maximum (xs : List Sample) : Sample := xs.tail.foldl Sample.max (xs.headD .missing)

def minimum (xs : List Sample) : Sample := xs.tail.foldl Sample.min (xs.headD .missing)

def max : List Sample → Sample := ofPresent maximum

def min : List Sample → Sample := ofPresent minimum

def first : List Sample → Sample := ofPresent (·.headD .missing)

def last : List Sample → Sample := ofPresent (·.getLastD .missing)

/-- The product, from left to right. -/
def multiply : List Sample → Sample :=
  ofPresent fun xs => xs.tail.foldl Sample.mul (xs.headD .missing)

/-- The first sample less the sum of those after it. -/
def diff : List Sample → Sample :=
  ofPresent fun xs => Sample.sub (xs.headD .missing) (Sample.sum xs.tail)

def range : List Sample → Sample := ofPresent fun xs => Sample.sub (maximum xs) (minimum xs)

def count : List Sample → Sample := ofPresent fun xs => Sample.ofNat xs.length

def stddev : List Sample → Sample :=
  ofPresent fun xs => Sample.sqrt (average (squaredDeviations xs))

end Rollup.Statistic
