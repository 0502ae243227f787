import Rollup.Proofs.Series.Times

/-!
Views under a factor, whichever way it was set. Main statement: samples that arrive later add points
to a view and change at most the last one that it had, for every reducer, also one that refuses
groups.
-/

namespace Rollup.Series

variable {s : Series} {k : Nat}

/-- The series under another factor, before its view is worked out. -/
def regrouped (s : Series) (count : Int) : Series := { s with grouping := count, view := none }

/-- The view under a factor. -/
def viewUnder (s : Series) (count : Int) : Except Fault (List Sample) :=
  (s.regrouped count).aggregated.1

/-- The times of the points of that view. -/
def timesUnder (s : Series) (count : Int) : Except Fault (List Int) :=
  (s.regrouped count).aggregatedTimestamps.1

/-- This is what is shown after the factor was set. -/
theorem views_of_regroup [Runtime] {next : Series} {count : Int}
    (done : s.regroup count = .ok next) :
    next.aggregated.1 = s.viewUnder count ∧ next.aggregatedTimestamps.1 = s.timesUnder count := by
  obtain ⟨_, _, rfl⟩ := regroup_eq_ok_iff.mp done
  exact ⟨rfl, rfl⟩

theorem viewUnder_eq (s : Series) (k : Nat) : s.viewUnder k = (s.regrouped k).aggregate.1 := rfl

theorem viewUnder_of_single (single : k ≤ 1) : s.viewUnder k = .ok s.values := by
  have alone : (s.regrouped k).grouping ≤ 1 := by
    change (k : Int) ≤ 1
    omega
  rw [viewUnder_eq, aggregate, if_pos alone]
  rfl

/-- A reducer is found first, then the groups are reduced in turn. -/
theorem viewUnder_of_several (several : 1 < k) :
    s.viewUnder k = (s.resolve .standard).1.mapError Fault.unknownReducer >>= fun reducer =>
      reduceGroups reducer k s.values := by
  have same : ((s.regrouped k).resolve .standard).1 = (s.resolve .standard).1 := by
    rw [@resolve_congr s (s.regrouped k) .standard rfl rfl rfl rfl rfl]
  rw [viewUnder_eq, ← same]
  rcases (s.regrouped k).aggregate_cases with
    ⟨single, _⟩ | ⟨_, unknown, failed, outcome⟩ | ⟨_, reducer, found, answer⟩
  · change (k : Int) ≤ 1 at single
    omega
  · rw [outcome, failed]
    rfl
  · rw [found]
    rcases answer with ⟨reason, reduced, outcome⟩ | ⟨view, reduced, outcome⟩
    all_goals
      change reduceGroups reducer k s.values = _ at reduced
      rw [outcome]
      exact reduced.symm

/-- A resolution answers the reducer that is registered under a name. -/
def ResolvesTo (s : Series) (name : Text) : Prop :=
  ∃ reducer, Registry.standard.find? name = some reducer ∧ (s.resolve .standard).1 = .ok reducer

theorem ResolvesTo.resolve_eq {name : Text} {reducer : Reducer} (resolved : s.ResolvesTo name)
    (found : Registry.standard.find? name = some reducer) :
    (s.resolve .standard).1 = .ok reducer := by
  obtain ⟨other, same, answered⟩ := resolved
  rw [found] at same
  cases same
  exact answered

/-- A fresh series may give the name in any case. -/
theorem resolvesTo_of_lower {name : Text} {reducer : Reducer} (unbound : s.reducer = none)
    (unasked : s.unresolved = none) (same : Text.lower s.lookupName = Text.lower name)
    (found : Registry.standard.find? name = some reducer) : s.ResolvesTo name := by
  have asked : Registry.standard.find? s.lookupName = some reducer := by
    rw [← found, Registry.find?, Registry.find?, same]
  refine ⟨reducer, found, ?_⟩
  simp [resolve, unbound, unasked, asked]

theorem viewUnder_of_statistic {label : String} {f : List Sample → Sample} (several : 1 < k)
    (resolved : (s.resolve .standard).1 = .ok (.ofStatistic label f)) :
    s.viewUnder k = .ok ((groups k s.values).map f) := by
  rw [viewUnder_of_several several, resolved]
  exact reduceGroups_ofStatistic label f k s.values

theorem reduceGroups_append {reducer : Reducer} {v : List Sample} (whole : k ∣ v.length)
    (w : List Sample) :
    reduceGroups reducer k (v ++ w) = do
      let first ← reduceGroups reducer k v
      let rest ← reduceGroups reducer k w
      return first ++ rest := by
  rw [reduceGroups, groups_append whole, List.mapM_append]
  rfl

/-- Whole groups are reduced apart from what follows; the first failure is that of the whole. -/
theorem viewUnder_append {v : List Sample} (whole : max 1 k ∣ v.length) (w : List Sample) :
    (s.edit (.values (v ++ w))).viewUnder k = do
      let first ← (s.edit (.values v)).viewUnder k
      let rest ← (s.edit (.values w)).viewUnder k
      return first ++ rest := by
  by_cases single : k ≤ 1
  · simp only [viewUnder_of_single single]
    rfl
  · have several : 1 < k := by omega
    have same (values : List Sample) :
        ((s.edit (.values values)).resolve .standard).1 = (s.resolve .standard).1 := by
      rw [@resolve_congr s (s.edit (.values values)) .standard rfl rfl rfl rfl rfl]
    rw [Nat.max_eq_right (Nat.le_of_lt several)] at whole
    simp only [viewUnder_of_several several, same]
    cases (s.resolve .standard).1 with
    | error unknown => rfl
    | ok reducer =>
      exact reduceGroups_append whole w

theorem viewUnder_append_eq_ok {v w view : List Sample} (whole : max 1 k ∣ v.length)
    (shown : (s.edit (.values (v ++ w))).viewUnder k = .ok view) :
    ∃ first rest, (s.edit (.values v)).viewUnder k = .ok first ∧ view = first ++ rest := by
  simp only [viewUnder_append whole, Fault.bind_eq_ok_iff] at shown
  obtain ⟨first, full, rest, _, joined⟩ := shown
  cases joined
  exact ⟨first, rest, full, rfl⟩

theorem length_of_viewUnder {view : List Sample} (shown : s.viewUnder k = .ok view) :
    view.length = (s.values.length + max 1 k - 1) / max 1 k := by
  rw [viewUnder_eq] at shown
  exact length_of_aggregate shown

/-- The points of all groups that are full are there again when more samples have arrived. -/
theorem prefix_of_viewUnder {v w before after : List Sample}
    (shown : (s.edit (.values v)).viewUnder k = .ok before)
    (grown : (s.edit (.values (v ++ w))).viewUnder k = .ok after) :
    ∃ points : List Sample, points.length = v.length / max 1 k ∧ points <+: before ∧
      points <+: after := by
  -- the full groups are cut off, and what is left of the samples stands before those to come
  have positive : 0 < max 1 k := by omega
  obtain ⟨full, left, rfl, length⟩ : ∃ full left, v = full ++ left ∧
      full.length = max 1 k * (v.length / max 1 k) := by
    refine ⟨_, _, (List.take_append_drop (max 1 k * (v.length / max 1 k)) v).symm, ?_⟩
    rw [List.length_take, Nat.min_eq_left (Nat.mul_div_le _ _)]
  have whole : max 1 k ∣ full.length := ⟨_, length⟩
  rw [List.append_assoc] at grown
  obtain ⟨points, tail, completed, rfl⟩ := viewUnder_append_eq_ok whole shown
  obtain ⟨again, tail', same, rfl⟩ := viewUnder_append_eq_ok whole grown
  rw [completed] at same
  cases same
  refine ⟨points, ?_, List.prefix_append _ _, List.prefix_append _ _⟩
  have next : full.length + max 1 k - 1 = max 1 k - 1 +
      max 1 k * ((full ++ left).length / max 1 k) := by omega
  have short : (max 1 k - 1) / max 1 k = 0 := Nat.div_eq_of_lt (by omega)
  have values : (s.edit (.values full)).values = full := rfl
  rw [length_of_viewUnder completed, values, next, Nat.add_mul_div_left _ _ positive, short,
    Nat.zero_add]

theorem timesUnder_eq_ok {times : List Int} (timed : s.timesUnder k = .ok times) :
    ∃ view, s.viewUnder k = .ok view ∧
      times = (Time.spaced s.start (s.step * (max 1 k : Nat)) view.length).map Time.wrap := by
  rcases outcome : (s.regrouped k).aggregated with ⟨fault | view, after⟩
  · rw [timesUnder, aggregatedTimestamps, outcome] at timed
    cases timed
  · have read : (s.regrouped k).aggregated.1 = .ok view := by rw [outcome]
    rw [timesUnder, aggregatedTimestamps_fst read] at timed
    exact ⟨view, read, (Time.instants_eq_ok_iff.mp timed).2.2⟩

theorem prefix_of_timesUnder {v w : List Sample} {before after : List Int}
    (shown : (s.edit (.values v)).timesUnder k = .ok before)
    (grown : (s.edit (.values (v ++ w))).timesUnder k = .ok after) :
    ∃ times : List Int, times.length = v.length / max 1 k ∧ times <+: before ∧ times <+: after := by
  obtain ⟨view, viewed, rfl⟩ := timesUnder_eq_ok shown
  obtain ⟨view', viewed', rfl⟩ := timesUnder_eq_ok grown
  obtain ⟨points, count, among, among'⟩ := prefix_of_viewUnder viewed viewed'
  refine ⟨(Time.spaced s.start (s.step * (max 1 k : Nat)) points.length).map Time.wrap, ?_,
    (Time.prefix_spaced among.length_le).map Time.wrap,
    (Time.prefix_spaced among'.length_le).map Time.wrap⟩
  rw [List.length_map, Time.length_spaced, count]

/-- Samples that arrive: where those before them fill their groups, the view is that of those before
followed by that of the new ones, or fails as the first of the two that fails. In any case the
points of full groups and their times stay. -/
theorem view_of_arrivals (s : Series) (k : Nat) (v w : List Sample) :
    (max 1 k ∣ v.length →
      (s.edit (.values (v ++ w))).viewUnder k = (do
        let first ← (s.edit (.values v)).viewUnder k
        let rest ← (s.edit (.values w)).viewUnder k
        return first ++ rest)) ∧
    (∀ before after, (s.edit (.values v)).viewUnder k = .ok before →
      (s.edit (.values (v ++ w))).viewUnder k = .ok after →
      ∃ points : List Sample, points.length = v.length / max 1 k ∧ points <+: before ∧
        points <+: after) ∧
    (∀ before after, (s.edit (.values v)).timesUnder k = .ok before →
      (s.edit (.values (v ++ w))).timesUnder k = .ok after →
      ∃ times : List Int, times.length = v.length / max 1 k ∧ times <+: before ∧
        times <+: after) := by
  refine ⟨?_, ?_, ?_⟩
  · intro whole
    exact viewUnder_append whole w
  · intro before after shown grown
    exact prefix_of_viewUnder shown grown
  · intro before after shown grown
    exact prefix_of_timesUnder shown grown

/-- A reducer that refuses groups with a missing sample, on pairs: after two full pairs comes one
that is refused, and after three samples one that completes the second pair. -/
theorem view_of_arrivals_refused :
    ∃ (s : Series) (v w late : List Sample),
      v = [.ofNat 1, .ofNat 2, .ofNat 3, .ofNat 4] ∧ w = [.ofNat 5, .missing] ∧
      late = [.ofNat 1, .ofNat 2, .ofNat 3] ∧ max 1 2 ∣ v.length ∧
      (s.edit (.values v)).viewUnder 2 = .ok [.ofNat 3, .ofNat 7] ∧
      (s.edit (.values (v ++ w))).viewUnder 2 = .error (.refused "missing") ∧
      (s.edit (.values late)).viewUnder 2 = .ok [.ofNat 3, .ofNat 3] ∧
      (s.edit (.values (late ++ [.ofNat 4]))).viewUnder 2 = .ok [.ofNat 3, .ofNat 7] ∧
      [.ofNat 3] <+: [Sample.ofNat 3, .ofNat 7] := by
  let s : Series :=
    { name := "a", start := 0, step := 60, stop := 0, values := [],
      reducer := some ⟨"strict", fun group =>
        if group.any Sample.isMissing then .error (.refused "missing")
        else .ok (Statistic.sum group)⟩ }
  let v : List Sample := [.ofNat 1, .ofNat 2, .ofNat 3, .ofNat 4]
  let late : List Sample := [.ofNat 1, .ofNat 2, .ofNat 3]
  have whole : max 1 2 ∣ v.length := by decide
  have full : (s.edit (.values v)).viewUnder (2 : Nat) = .ok [.ofNat 3, .ofNat 7] := by
    decide +kernel
  have refused : (s.edit (.values [.ofNat 5, .missing])).viewUnder (2 : Nat) =
      .error (.refused "missing") := by
    decide +kernel
  have short : (s.edit (.values late)).viewUnder (2 : Nat) = .ok [.ofNat 3, .ofNat 3] := by
    decide +kernel
  have grown : (s.edit (.values (late ++ [.ofNat 4]))).viewUnder (2 : Nat) =
      .ok [.ofNat 3, .ofNat 7] := by
    decide +kernel
  have joined := (view_of_arrivals s 2 v [.ofNat 5, .missing]).1 whole
  obtain ⟨points, count, among, among'⟩ :=
    (view_of_arrivals s 2 late [.ofNat 4]).2.1 _ _ short grown
  have first : points = [.ofNat 3] := by
    have one : points.length = 1 := by
      rw [count]
      decide
    rw [List.prefix_iff_eq_take.mp among, one]
    rfl
  rw [full, refused] at joined
  rw [first] at among'
  exact ⟨s, v, _, late, rfl, rfl, rfl, whole, full, joined, short, grown, among'⟩

end Rollup.Series
