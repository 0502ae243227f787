import Rollup.Fault
import Rollup.Time.Calendar

/-!
Instants, and what local clocks show at them. Instants are seconds since the start of 1970, held in
signed 64-bit words; sequences of them wrap around at the ends of the word.
-/

namespace Rollup.Time

def fitsWord (n : Int) : Bool := -(2 ^ 63) ≤ n && n < 2 ^ 63

/-- The signed 64-bit word equal to `n` modulo `2 ^ 64`. -/
def wrap (n : Int) : Int := n.bmod (2 ^ 64)

/-- The instants `start`, `start + step`, …; both must fit a word, even if there are none. -/
def instants (start step : Int) (count : Nat) : Except Fault (List Int) :=
  if fitsWord start && fitsWord step then
    .ok ((List.range count).map fun (i : Nat) => wrap (start + step * i))
  else .error .wordTooLarge

/-- A time zone: the offset of its clocks from universal time, in seconds, at each instant. -/
structure Zone where
  offset : Int → Int
  /-- Whether the clocks go on changing for ever, as with yearly summer time. -/
  changing : Bool

namespace Zone

/-- The zone of universal time. -/
def universal : Zone := ⟨fun _ => 0, false⟩

/-- The seconds of the calendar's range reach this far from 1970. -/
def reach : Nat := 9223372036854

def inReach (t : Int) : Bool := t.natAbs ≤ reach

/-- The last year, by universal time, of which the changes of clocks are known. -/
def lastChanges : Int := 9999

/-- Nothing tells what changing clocks show after their last known changes. All others keep their
last offset for ever. -/
def covers (zone : Zone) (t : Int) : Bool :=
  !zone.changing || (DateTime.ofSeconds t).date.year ≤ lastChanges

/-- What a local clock shows. Clocks that change show no year past the last either. -/
def localTime (zone : Zone) (t : Int) : Except Fault DateTime := do
  Fault.require (zone.covers t) .yearOutOfRange
  let shown := t + zone.offset t
  Fault.require (inReach shown) .timeOutOfRange
  Fault.require (zone.covers shown) .localYearOutOfRange
  return .ofSeconds shown

end Zone

end Rollup.Time
