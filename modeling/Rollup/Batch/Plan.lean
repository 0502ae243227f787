import Rollup.Batch.Basic

/-!
Planning: grouping factors that bring each series of a batch within a budget of points. The span
of the whole batch counts, so that series shown together are grouped alike.
-/

namespace Rollup

/-- The least count that a sample which is not negative does not exceed. -/
def Sample.ceil? : Sample → Option Nat
  | .finite x => some ((x.magnitude + one - 1) / one)
  | _ => none

/-- The quotient of two counts, rounded to a sample and then up; none if it is infinite. -/
def ceilQuotient (count budget : Nat) : Option Nat :=
  (Sample.ofRatio false (count * Sample.one) budget).ceil?

variable [Runtime]

/-- Regroups a series that would have more points than the budget over a span. -/
def Series.plan (span budget : Int) (s : Series) : Except Fault Series :=
  if s.step = 0 then .error .stepZero
  else
    let points := span.fdiv s.step
    if points ≤ budget then .ok s
    else match ceilQuotient points.toNat budget.toNat with
      | none => .error .quotientTooLarge
      | some count => s.regroup count

namespace Batch

/-- Plans one series after another, up to the first that fails. -/
def planAll (span budget : Int) : List Nat → Store → Except Fault Unit × Store
  | [], store => (.ok (), store)
  | i :: rest, store =>
    match store[i]? with
    | none => planAll span budget rest store
    | some s =>
      match s.plan span budget with
      | .error fault => (.error fault, store)
      | .ok planned => planAll span budget rest (store.set i planned)

/-- Groups the series of a batch so that none exceeds a positive budget of points. A batch that
spans no time is left as it is. -/
def consolidate (budget : Int) (batch : Batch) (store : Store) : Except Fault Unit × Store :=
  match Fault.requireOf budget (0 < budget) (.budgetNotPositive budget) with
  | .error fault => (.error fault, store)
  | .ok () =>
    let (start, stop) := timeRange (batch.series store)
    if stop - start ≤ 0 then (.ok (), store)
    else planAll (stop - start) budget (batch.present store) store

end Batch

end Rollup
