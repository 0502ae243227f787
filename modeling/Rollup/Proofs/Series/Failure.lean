import Rollup.Proofs.Groups
import Rollup.Proofs.Store.Resolution

/-!
Recomputations that fail. Main statement: they leave a series with the view and all the data that it
had, also where groups had been reduced before one was refused; only what a first look-up found, or
that it found nothing, is kept.
-/

namespace Rollup

namespace Series

variable {registry : Registry} {s next : Series} {fault : Fault}

/-- A recomputation that looks for the reducer in some registry. -/
def aggregateBy (registry : Registry) (s : Series) : Except Fault (List Sample) × Series :=
  if s.grouping ≤ 1 then (.ok s.values, { s with view := some s.values })
  else
    match s.resolve registry with
    | (.error unknown, after) => (.error (.unknownReducer unknown), after)
    | (.ok reducer, after) =>
      match reduceGroups reducer s.grouping.toNat s.values with
      | .error fault => (.error fault, after)
      | .ok view => (.ok view, { after with view := some view })

theorem aggregateBy_standard (s : Series) : s.aggregateBy .standard = s.aggregate := rfl

/-- A reducer refuses a group, after it has reduced the groups before. -/
def Refuses (s : Series) (reducer : Reducer) (fault : Fault) : Prop :=
  ∃ before part after, groups s.grouping.toNat s.values = before ++ part :: after ∧
    (∀ group ∈ before, ∃ x, reducer.reduce group = .ok x) ∧ reducer.reduce part = .error fault

theorem reduceGroups_eq_error_iff {reducer : Reducer} :
    reduceGroups reducer s.grouping.toNat s.values = .error fault ↔ s.Refuses reducer fault :=
  mapM_eq_error_iff

/-- Why a recomputation fails, and what is left of the series then. -/
inductive FailsTo (registry : Registry) (s : Series) : Fault → Series → Prop
  /-- It is known that there is no reducer. -/
  | known : s.reducer = none → s.unresolved.isSome →
      FailsTo registry s (.unknownReducer ⟨s.name, s.consolidation⟩) s
  /-- A first look-up finds none. -/
  | recorded : s.IsOpen → registry.find? s.lookupName = none →
      FailsTo registry s (.unknownReducer ⟨s.name, s.consolidation⟩)
        { s with lookups := s.lookups + 1, unresolved := some ⟨s.name, s.consolidation⟩ }
  | refused (reducer : Reducer) (fault : Fault) : s.reducer = some reducer →
      s.Refuses reducer fault → FailsTo registry s fault s
  /-- A first look-up finds a reducer, which then refuses a group. -/
  | bound (reducer : Reducer) (fault : Fault) : s.IsOpen →
      registry.find? s.lookupName = some reducer → s.Refuses reducer fault →
      FailsTo registry s fault
        { s with lookups := s.lookups + 1, reducer := some reducer }

theorem FailsTo.frame (fails : s.FailsTo registry fault next) :
    next = { s with
      reducer := next.reducer
      unresolved := next.unresolved
      lookups := next.lookups } := by
  cases fails <;> rfl

/-- A recomputation fails with its resolution or, after it, with a group. -/
theorem aggregateBy_fails_iff :
    s.aggregateBy registry = (.error fault, next) ↔
      1 < s.grouping ∧
        ((∃ unknown, s.resolve registry = (.error unknown, next) ∧
            fault = .unknownReducer unknown) ∨
          ∃ reducer, s.resolve registry = (.ok reducer, next) ∧ s.Refuses reducer fault) := by
  by_cases single : s.grouping ≤ 1
  · have ungrouped : ¬ 1 < s.grouping := by omega
    simp [aggregateBy, single, ungrouped]
  · have grouped : 1 < s.grouping := by omega
    simp only [aggregateBy, if_neg single, grouped, true_and, ← reduceGroups_eq_error_iff]
    rcases s.resolve registry with ⟨unknown | reducer, after⟩
    · simp [eq_comm, and_comm]
    · cases reduced : reduceGroups reducer s.grouping.toNat s.values with
      | error fault => simp [reduced, eq_comm, and_comm]
      | ok view => simp [reduced]

theorem failsTo_of_unknown {unknown : UnknownReducer}
    (resolved : s.resolve registry = (.error unknown, next)) :
    s.FailsTo registry (.unknownReducer unknown) next := by
  rcases s.resolve_cases registry with ⟨reducer, _, outcome⟩ | ⟨none_held, missed, outcome⟩ |
    ⟨none_held, none_missed, ⟨reducer, _, outcome⟩ | ⟨absent, outcome⟩⟩
  all_goals
    rw [resolved] at outcome
    cases outcome
  · exact .known none_held missed
  · exact .recorded ⟨none_held, none_missed⟩ absent

theorem failsTo_of_refusal {reducer : Reducer}
    (resolved : s.resolve registry = (.ok reducer, next)) (refuses : s.Refuses reducer fault) :
    s.FailsTo registry fault next := by
  rcases s.resolve_cases registry with ⟨_, held, outcome⟩ | ⟨_, _, outcome⟩ |
    ⟨none_held, none_missed, ⟨_, found, outcome⟩ | ⟨_, outcome⟩⟩
  all_goals
    rw [resolved] at outcome
    cases outcome
  · exact .refused reducer fault held refuses
  · exact .bound reducer fault ⟨none_held, none_missed⟩ found refuses

theorem failsTo_of_aggregateBy (failed : s.aggregateBy registry = (.error fault, next)) :
    s.FailsTo registry fault next := by
  rcases (aggregateBy_fails_iff.mp failed).2 with
    ⟨unknown, resolved, rfl⟩ | ⟨reducer, resolved, refuses⟩
  · exact failsTo_of_unknown resolved
  · exact failsTo_of_refusal resolved refuses

/-- A reading fails only where no view is kept. -/
theorem aggregated_fails_iff :
    s.aggregated = (.error fault, next) ↔ s.view = none ∧ s.aggregate = (.error fault, next) := by
  cases kept : s.view with
  | some view => simp [aggregated, kept]
  | none => simp [aggregated, kept]

theorem aggregated_of_failsTo {view : List Sample} (fails : s.FailsTo registry fault next)
    (kept : s.view = some view) : next.aggregated = (.ok view, next) := by
  have same : next.view = some view := by
    rw [fails.frame]
    exact kept
  rw [aggregated, same]

theorem aggregatedTimestamps_of_error (failed : s.aggregated = (.error fault, next)) :
    s.aggregatedTimestamps = (.error fault, next) := by
  rw [aggregatedTimestamps, failed]

end Series

namespace Json

/-- Writing a document leaves a series alone or as one reading of its view does. -/
theorem getElem?_encode (batch : Batch) {store : Store} {i : Nat} {s : Series}
    (found : store[i]? = some s) :
    (encode batch store).2[i]? = some s ∨ (encode batch store).2[i]? = some s.aggregated.2 := by
  obtain ⟨visited, _, walked, _⟩ := Store.contents_walk (batch.present store) store
  have left : (encode batch store).2 = store.walk (fun s => (entry s).2) visited := walked
  have again (s : Series) : (entry (entry s).2).2 = (entry s).2 := by rw [entry_again]
  rw [left]
  by_cases member : i ∈ visited
  · right
    rw [Store.getElem?_walk_of_mem again member, found, Option.map_some, entry_snd]
  · left
    rw [Store.getElem?_walk_of_not_mem member, found]

end Json

namespace Series

/-- A failed recomputation, asked for or made by a reading of the view, of its times or for a
document. -/
theorem kept_of_failure (s : Series) (fault : Fault) (next : Series) :
    s.aggregateBy .standard = s.aggregate ∧
    (∀ registry, s.aggregateBy registry = (.error fault, next) →
      s.FailsTo registry fault next ∧
        ∀ view, s.view = some view → next.aggregated = (.ok view, next)) ∧
    (s.aggregated = (.error fault, next) →
      s.view = none ∧ s.FailsTo .standard fault next ∧
        s.aggregatedTimestamps = (.error fault, next) ∧
        ∀ (batch : Batch) (store : Store) (i : Nat), store[i]? = some s →
          (Json.encode batch store).2[i]? = some s ∨
            (Json.encode batch store).2[i]? = some next) := by
  refine ⟨s.aggregateBy_standard, ?_, ?_⟩
  · intro registry failed
    have fails := failsTo_of_aggregateBy failed
    exact ⟨fails, fun view kept => aggregated_of_failsTo fails kept⟩
  · intro failed
    obtain ⟨none_kept, recomputed⟩ := aggregated_fails_iff.mp failed
    refine ⟨none_kept, failsTo_of_aggregateBy recomputed, aggregatedTimestamps_of_error failed, ?_⟩
    intro batch store i found
    have left := Json.getElem?_encode batch found
    rwa [failed] at left

/-- A reducer found by a first look-up takes the first group and refuses the second; the series has
an older view, which it goes on to answer. -/
theorem kept_of_failure_halfway :
    ∃ (registry : Registry) (s next : Series) (view : List Sample),
      s.reducer = none ∧ s.view = some view ∧
      s.aggregateBy registry = (.error (.refused "gap"), next) ∧
      next.reducer.isSome ∧ s.FailsTo registry (.refused "gap") next ∧
      next.aggregated = (.ok view, next) := by
  let strict : Reducer :=
    ⟨"strict", fun group =>
      if group.any Sample.isMissing then .error (.refused "gap") else .ok (Statistic.sum group)⟩
  let registry : Registry := ⟨[("average", strict)]⟩
  let s : Series :=
    { name := "a", start := 0, stop := 4, step := 1, grouping := 2,
      values := [.ofNat 1, .ofNat 2, .missing, .ofNat 3], view := some [.ofNat 9] }
  have name : Text.lower s.lookupName = "average" := by decide +kernel
  have found : registry.find? s.lookupName = some strict := by
    simp [Registry.find?, registry, name]
  have resolved : s.resolve registry =
      (.ok strict, { s with lookups := 1, reducer := some strict }) := by
    simp [resolve, found, s]
  have refuses : s.Refuses strict (.refused "gap") := by
    refine ⟨[[.ofNat 1, .ofNat 2]], [.missing, .ofNat 3], [], by decide +kernel, ?_, rfl⟩
    intro group member
    cases List.mem_singleton.mp member
    have complete : [Sample.ofNat 1, .ofNat 2].any Sample.isMissing = false := by decide +kernel
    exact ⟨Statistic.sum [.ofNat 1, .ofNat 2], by simp [strict, complete]⟩
  have failed := aggregateBy_fails_iff.mpr
    ⟨by decide, .inr ⟨strict, resolved, refuses⟩⟩
  obtain ⟨fails, kept⟩ := (kept_of_failure s _ _).2.1 registry failed
  exact ⟨registry, s, _, _, rfl, rfl, failed, rfl, fails, kept _ rfl⟩

end Series

end Rollup
