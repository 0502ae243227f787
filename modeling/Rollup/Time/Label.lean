import Rollup.Runtime

/-!
Labels of evenly spaced instants, in the local time of a zone.
-/

namespace Rollup.Time

/-- The lowest word stands for a missing time. -/
def missingTime : Int := -(2 ^ 63)

/-- A missing time has no label. -/
def label (zone : Zone) (t : Int) : Except Fault (Option (List Char)) :=
  if t = missingTime then .ok none else (zone.localTime t).map (some ·.text)

/-- The most instants whose bytes a signed 64-bit word can count. -/
def addressLimit : Int := 2 ^ 60

/-- The number of labels for a count, none if it is negative. Counts are rounded to samples first:
one that rounds past `2 ^ 63` is no count at all, and `2 ^ 63` itself is the negative word. -/
def labelCount (count : Int) : Except Fault Nat :=
  if 2 ^ 63 + 2 ^ 10 < count.natAbs then .error .countTooLarge
  else if 2 ^ 63 - 2 ^ 9 ≤ count then .ok 0
  else if addressLimit ≤ count then .error .countTooLarge
  else .ok count.toNat

/-- No instants need no zone. Otherwise the count is checked first and then the words, that every
instant lies in the calendar's range, and the zone. -/
def labels [Runtime] (start step count : Int) (zone : Text) :
    Except Fault (List (Option (List Char))) :=
  if count = 0 then .ok []
  else do
    let times ← instants start step (← labelCount count)
    Fault.require (times.all fun t => t = missingTime || Zone.inReach t) .timeOutOfRange
    let zone ← (Runtime.zone zone).mapError (Fault.zone zone)
    times.mapM (label zone)

end Rollup.Time
