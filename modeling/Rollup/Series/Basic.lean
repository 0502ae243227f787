import Rollup.Metric
import Rollup.Reduce.Registry
import Rollup.Runtime

/-!
A series: named, evenly spaced samples with their metadata, a grouping factor for consolidation,
and what has been worked out so far, its reducer and its consolidated view.
-/

namespace Rollup

structure Series where
  name : Text
  start : Int
  stop : Int
  step : Int
  values : List Sample
  pathExpression : Text := []
  consolidation : Text := []
  xFilesFactor : Sample := .zero
  tags : Tags := []
  highPrecision : Bool := false
  appliedFunctions : List Text := []
  requestStart : Int := 0
  requestStop : Int := 0
  /-- The reducer bound to the series, by the caller or by a look-up. -/
  reducer : Option Reducer := none
  /-- Samples per point of the view; up to one means no consolidation. -/
  grouping : Int := 0
  /-- The view as last computed. -/
  view : Option (List Sample) := none
  /-- A look-up that found no reducer. -/
  unresolved : Option UnknownReducer := none
  /-- How many times a registry was asked for the reducer. -/
  lookups : Nat := 0

namespace Series

/-- Checks the structure; `bounds` asks also that the end is one step after the last sample. -/
def check (s : Series) (bounds : Bool) : Except Fault Unit :=
  let demand (sound : Bool) (defect : Defect) : Except Fault Unit :=
    Fault.require sound (.defective s.name defect)
  do
    demand (0 < s.step) .step
    demand (0 ≤ s.grouping) .grouping
    demand (s.values.isEmpty || s.start ≤ s.stop) .order
    demand (!bounds || s.stop == s.start + s.step * s.values.length) .bounds
    demand s.tags.allText .tags

section

variable [Runtime]

/-- A series over a start and a positive step, with the given tags. -/
def makeTagged (name : Text) (values : List Sample) (step start : Int) (tags : Tags) :
    Except Fault Series := do
  Fault.requireOf step (0 < step) (.stepNotPositive step)
  let s : Series :=
    { name, values, step, start, tags, stop := start + values.length * step }
  s.check true
  return s

/-- A series tagged from a mapping. A key that is no text is refused like such a value. -/
def makeMapped (name : Text) (values : List Sample) (step start : Int) (mapping : Mapping) :
    Except Fault Series := do
  let s ← makeTagged name values step start mapping.tags
  Fault.require (mapping.all (·.1.isText)) (.defective name .tags)
  return s

/-- A series tagged by an extractor from its name. -/
def makeExtracting (extract : Text → Mapping) (name : Text) (values : List Sample)
    (step start : Int) : Except Fault Series :=
  makeMapped name values step start (extract name)

/-- A series tagged by its metric name. -/
def make : Text → List Sample → Int → Int → Except Fault Series :=
  makeExtracting fun name => .ofTags (Metric.tags name)

/-- A new grouping factor; the view no longer stands, even if the factor is the same. -/
def regroup (s : Series) (count : Int) : Except Fault Series := do
  Fault.requireOf count (0 ≤ count) (.groupingNegative count)
  return { s with grouping := count, view := none }

end

/-- A plain change of one field. It keeps the view, whatever the field. -/
inductive Edit where
  | name (name : Text)
  | start (start : Int)
  | stop (stop : Int)
  | step (step : Int)
  | values (values : List Sample)
  | append (value : Sample)
  | pathExpression (expression : Text)
  | consolidation (func : Text)
  | xFilesFactor (factor : Sample)
  | tags (tags : Tags)
  | highPrecision (flag : Bool)
  | appliedFunctions (functions : List Text)
  | requestStart (start : Int)
  | requestStop (stop : Int)
  | reducer (reducer : Option Reducer)
  | grouping (count : Int)

def edit (s : Series) : Edit → Series
  | .name name => { s with name }
  | .start start => { s with start }
  | .stop stop => { s with stop }
  | .step step => { s with step }
  | .values values => { s with values }
  | .append value => { s with values := s.values ++ [value] }
  | .pathExpression pathExpression => { s with pathExpression }
  | .consolidation consolidation => { s with consolidation }
  | .xFilesFactor xFilesFactor => { s with xFilesFactor }
  | .tags tags => { s with tags }
  | .highPrecision highPrecision => { s with highPrecision }
  | .appliedFunctions appliedFunctions => { s with appliedFunctions }
  | .requestStart requestStart => { s with requestStart }
  | .requestStop requestStop => { s with requestStop }
  | .reducer reducer => { s with reducer }
  | .grouping grouping => { s with grouping }

theorem edit_view (s : Series) (change : Edit) : (s.edit change).view = s.view := by
  cases change <;> rfl

theorem regroup_eq_ok_iff [Runtime] {s after : Series} {count : Int} :
    s.regroup count = .ok after ↔
      isWritable count = true ∧ 0 ≤ count ∧
        after = { s with grouping := count, view := none } := by
  simp only [regroup, Fault.bind_eq_ok_iff, Fault.requireOf_eq_ok_iff, decide_eq_true_eq]
  constructor
  · rintro ⟨_, ⟨writable, allowed⟩, done⟩
    cases done
    exact ⟨writable, allowed, rfl⟩
  · rintro ⟨writable, allowed, rfl⟩
    exact ⟨(), ⟨writable, allowed⟩, rfl⟩

end Series

end Rollup
