import Rollup.Tags

/-!
Metric names. A name is a path with tags after semicolons, or a call whose first argument leads to
one: `sumSeries(a.b;dc=x, c.d)` names the metric `a.b` tagged `dc=x`.
-/

namespace Rollup.Metric

/-- The text of a first argument: up to a comma or a closing bracket outside nested brackets. -/
def firstArgument (depth : Nat) : Text → Text
  | [] => []
  | c :: rest =>
    if c = '(' then c :: firstArgument (depth + 1) rest
    else if c = ')' then if depth = 0 then [] else c :: firstArgument (depth - 1) rest
    else if c = ',' ∧ depth = 0 then []
    else c :: firstArgument depth rest

theorem firstArgument_length_le (depth : Nat) (s : Text) :
    (firstArgument depth s).length ≤ s.length := by
  induction s generalizing depth with
  | nil => simp [firstArgument]
  | cons c rest ih =>
    have inner := ih (depth + 1)
    have outer := ih (depth - 1)
    have same := ih depth
    simp only [firstArgument]
    split
    · simpa using inner
    · split
      · split
        · simp
        · simpa using outer
      · split
        · simp
        · simpa using same

/-- What follows the first opening bracket, if there is one. -/
def afterBracket? (s : Text) : Option Text :=
  match s.dropWhile (· != ('(' : CodePoint)) with
  | [] => none
  | _ :: rest => some rest

theorem afterBracket?_length_lt {s rest : Text} (found : afterBracket? s = some rest) :
    rest.length < s.length := by
  have shorter := (List.dropWhile_sublist (l := s) (· != ('(' : CodePoint))).length_le
  simp only [afterBracket?] at found
  split at found
  · contradiction
  · next c tail split =>
    cases found
    rw [split, List.length_cons] at shorter
    omega

/-- Descends into the first argument of each call, from the outside in. -/
def innermost (s : Text) : Text :=
  match _found : afterBracket? s with
  | none => s
  | some rest => innermost (firstArgument 0 rest)
termination_by s.length
decreasing_by
  exact Nat.lt_of_le_of_lt (firstArgument_length_le 0 rest) (afterBracket?_length_lt _found)

/-- The metric of a name, without white space and then quotes around it. -/
def ofName (s : Text) : Text :=
  Text.trim Text.isQuote (Text.trim Text.isBlank (innermost s))

/-- A segment `key=value`, cut at its first equals sign; the key is not empty. -/
def tag? (segment : Text) : Option (Text × TagValue) :=
  match segment.span (· != ('=' : CodePoint)) with
  | ([], _) => none
  | (_, []) => none
  | (key, _ :: value) => some (key, .text value)

/-- The path under the key `name`, then the tags of the segments; later ones win. -/
def tags (name : Text) : Tags :=
  match Text.splitOn (';' : CodePoint) (ofName name) with
  | [] => []
  | path :: segments => Tags.ofList (("name", .text path) :: segments.filterMap tag?)

end Rollup.Metric
