import Rollup.Groups
import Rollup.Series.Basic

/-!
The consolidated view of a series: its samples in groups, each reduced to one. A series binds its
reducer and computes its view once, and keeps both. Operations that may do so return the series as
they leave it, also when they fail.
-/

namespace Rollup

namespace Series

/-- The name to look up; a series that gives none uses the fallback. -/
def lookupName (s : Series) : Text :=
  if s.consolidation = [] then Registry.fallback else s.consolidation

/-- Takes the bound reducer if there is one. A failed look-up is remembered and not repeated; it
is reported under the series' present names. -/
def resolve (registry : Registry) (s : Series) : Except UnknownReducer Reducer × Series :=
  match s.reducer with
  | some reducer => (.ok reducer, s)
  | none =>
    let unknown : UnknownReducer := ⟨s.name, s.consolidation⟩
    match s.unresolved with
    | some _ => (.error unknown, s)
    | none =>
      let asked := { s with lookups := s.lookups + 1 }
      match registry.find? s.lookupName with
      | some reducer => (.ok reducer, { asked with reducer := some reducer })
      | none => (.error unknown, { asked with unresolved := some unknown })

/-- One sample for each group, unless the reducer fails on one of them. -/
def reduceGroups (reducer : Reducer) (size : Nat) (values : List Sample) :
    Except Fault (List Sample) :=
  (groups size values).mapM reducer.reduce

/-- Computes the view and keeps it. -/
def aggregate (s : Series) : Except Fault (List Sample) × Series :=
  if s.grouping ≤ 1 then (.ok s.values, { s with view := some s.values })
  else
    match s.resolve .standard with
    | (.error unknown, after) => (.error (.unknownReducer unknown), after)
    | (.ok reducer, after) =>
      match reduceGroups reducer s.grouping.toNat s.values with
      | .error fault => (.error fault, after)
      | .ok view => (.ok view, { after with view := some view })

/-- The view as kept, or computed now. -/
def aggregated (s : Series) : Except Fault (List Sample) × Series :=
  match s.view with
  | some view => (.ok view, s)
  | none => s.aggregate

/-- Seconds between points of the view. -/
def aggregatedStep (s : Series) : Int := if s.grouping ≤ 1 then s.step else s.step * s.grouping

/-- The times of the samples. -/
def timestamps (s : Series) : Except Fault (List Int) :=
  Time.instants s.start s.step s.values.length

/-- The times of the points of the view, as kept or computed now. -/
def aggregatedTimestamps (s : Series) : Except Fault (List Int) × Series :=
  match s.aggregated with
  | (.error fault, after) => (.error fault, after)
  | (.ok view, after) => (Time.instants after.start after.aggregatedStep view.length, after)

end Series

end Rollup
