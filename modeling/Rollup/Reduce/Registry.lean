import Rollup.Fault
import Rollup.Reduce.Statistic

/-!
Reducers, which turn a group of samples into one, and the names they are found under.
-/

namespace Rollup

/-- A labelled function on groups of samples. It may fail on a group, in any way: for a reason of
its own, or as if it were part of the program. -/
structure Reducer where
  label : String
  reduce : List Sample → Except Fault Sample

/-- A reducer that accepts every group. -/
def Reducer.ofStatistic (label : String) (f : List Sample → Sample) : Reducer :=
  ⟨label, fun group => .ok (f group)⟩

/-- The reducers registered under each name. -/
structure Registry where
  entries : List (Text × Reducer)

namespace Registry

/-- The asked name is taken in lower case, the registered names as they are. -/
def find? (registry : Registry) (name : Text) : Option Reducer :=
  (registry.entries.find? (·.1 == Text.lower name)).map (·.2)

def standard : Registry :=
  let mean := Reducer.ofStatistic "mean" Statistic.mean
  let sum := Reducer.ofStatistic "sum" Statistic.sum
  let range := Reducer.ofStatistic "range" Statistic.range
  ⟨[("average", mean),
    ("avg", mean),
    ("avg_zero", .ofStatistic "mean_zero" Statistic.meanZero),
    ("median", .ofStatistic "median" Statistic.median),
    ("sum", sum),
    ("total", sum),
    ("max", .ofStatistic "max" Statistic.max),
    ("min", .ofStatistic "min" Statistic.min),
    ("first", .ofStatistic "first" Statistic.first),
    ("last", .ofStatistic "last" Statistic.last),
    ("multiply", .ofStatistic "multiply" Statistic.multiply),
    ("diff", .ofStatistic "diff" Statistic.diff),
    ("range", range),
    ("rangeof", range),
    ("count", .ofStatistic "count" Statistic.count),
    ("stddev", .ofStatistic "stddev" Statistic.stddev)]⟩

/-- The name looked up for a series that gives none. -/
def fallback : Text := "average"

end Registry

end Rollup
