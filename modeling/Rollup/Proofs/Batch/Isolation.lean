import Rollup.Proofs.Batch.Plan

/-!
A series whose reducer is unknown keeps no other one from its own. Main statement: the resolution of
a batch always answers, leaves each grouped series of the batch as a resolution of that series alone
would and all others as they are, and reports the series left without a reducer, once for each time
that the batch names them.
-/

namespace Rollup

namespace Series

/-- The report of a grouped series that has no reducer. -/
def lack (s : Series) : Option UnknownReducer :=
  if 1 < s.grouping ∧ s.reducer.isNone then some ⟨s.name, s.consolidation⟩ else none

/-- After a resolution there is a reducer, or it is known that there is none. -/
theorem resolve_known (registry : Registry) (s : Series) :
    (s.resolve registry).2.reducer.isSome ∨ (s.resolve registry).2.unresolved.isSome := by
  rcases s.resolve_cases registry with ⟨reducer, held, outcome⟩ | ⟨_, failed, outcome⟩ |
    ⟨_, _, ⟨reducer, _, outcome⟩ | ⟨_, outcome⟩⟩
  all_goals rw [outcome]
  · exact .inl (Option.isSome_of_eq_some held)
  · exact .inr failed
  · exact .inl rfl
  · exact .inr rfl

/-- What a batch reports of a series is that it leaves the series without a reducer. -/
theorem lack_resolvedBy (registry : Registry) (s : Series) :
    (s.resolvedBy registry).lack = s.reportBy registry := by
  by_cases single : s.grouping ≤ 1
  · simp [resolvedBy, reportBy, lack, single, Int.not_lt.mpr single]
  · have grouped : 1 < s.grouping := by omega
    rw [resolvedBy, if_neg single, reportBy, if_neg single]
    rcases s.resolve_cases registry with ⟨reducer, held, outcome⟩ | ⟨unbound, _, outcome⟩ |
      ⟨unbound, _, ⟨reducer, _, outcome⟩ | ⟨_, outcome⟩⟩
    · simp [outcome, lack, held]
    · simp [outcome, lack, unbound, grouped]
    · simp [outcome, lack]
    · simp [outcome, lack, unbound, grouped]

end Series

namespace Batch

variable {registry : Registry} {batch : Batch} {store : Store} {i : Nat}

theorem getElem?_resolve_of_mem (chosen : i ∈ batch.present store) :
    (batch.resolve registry store).2[i]? = store[i]?.map (Series.resolvedBy registry) := by
  rw [resolve, Store.resolveAll_walk]
  exact Store.getElem?_walk_of_mem (Series.resolvedBy_again registry) chosen

theorem getElem?_resolve_of_not_mem (outside : i ∉ batch.present store) :
    (batch.resolve registry store).2[i]? = store[i]? := by
  rw [resolve, Store.resolveAll_walk]
  exact Store.getElem?_walk_of_not_mem outside

theorem length_resolve (registry : Registry) (batch : Batch) (store : Store) :
    (batch.resolve registry store).2.length = store.length := by
  rw [resolve, Store.resolveAll_walk, Store.length_walk]

theorem series_resolve (registry : Registry) (batch : Batch) (store : Store) :
    batch.series (batch.resolve registry store).2 =
      (batch.series store).map (Series.resolvedBy registry) := by
  rw [series, series, present_eq (length_resolve registry batch store), List.map_filterMap]
  apply List.filterMap_congr
  intro i chosen
  exact getElem?_resolve_of_mem chosen

/-- The reports follow from the series as the resolution leaves them. -/
theorem reports_of_resolve (registry : Registry) (batch : Batch) (store : Store) :
    (batch.resolve registry store).1 =
      (batch.series (batch.resolve registry store).2).filterMap Series.lack := by
  have same : Series.lack ∘ Series.resolvedBy registry = Series.reportBy registry :=
    funext (Series.lack_resolvedBy registry)
  rw [series_resolve, List.filterMap_map, same, series, List.filterMap_filterMap]
  exact Store.resolveAll_reports registry (batch.present store) store

/-- A resolution of a batch, from any state and with any registry, beside one of each series in a
store of its own. -/
theorem isolated_of_resolve [Runtime] (registry : Registry) (batch : Batch) (store : Store) :
    ∃ unknowns after,
      store.perform (.resolveBatch batch registry) = (.ok (.reports unknowns), after) ∧
      after.length = store.length ∧
      (∀ (i : Nat) s, store[i]? = some s →
        (i ∈ batch.present store → 1 < s.grouping →
          ∃ r, after[i]? = some r ∧ (Store.perform [s] (.resolve 0 registry)).2 = [r] ∧
            (r.reducer.isSome ∨ r.unresolved.isSome)) ∧
        (i ∉ batch.present store ∨ s.grouping ≤ 1 → after[i]? = some s)) ∧
      unknowns = (batch.series after).filterMap Series.lack := by
  refine ⟨(batch.resolve registry store).1, (batch.resolve registry store).2, rfl,
    length_resolve registry batch store, ?_, reports_of_resolve registry batch store⟩
  intro i s found
  constructor
  · intro chosen grouped
    refine ⟨(s.resolve registry).2, ?_, rfl, s.resolve_known registry⟩
    rw [getElem?_resolve_of_mem chosen, found, Option.map_some, Series.resolvedBy,
      if_neg (by omega)]
  · intro left
    by_cases chosen : i ∈ batch.present store
    · have single : s.grouping ≤ 1 := left.resolve_left (not_not_intro chosen)
      rw [getElem?_resolve_of_mem chosen, found, Option.map_some, Series.resolvedBy, if_pos single]
    · rw [getElem?_resolve_of_not_mem chosen, found]

/-- A failing series, named twice, comes before one that finds its reducer and one that asks for
none. -/
theorem isolated_of_resolve_repeated :
    ∃ (store after : Store) (batch : Batch),
      store = Store.run [] [.makeTagged "a" [.ofNat 1, .missing, .ofNat 3] 10 0 [], .regroup 0 2,
        .makeTagged "b" [.ofNat 1] 10 0 [], .edit 1 (.consolidation "none"), .regroup 1 2,
        .makeTagged "c" [.ofNat 1] 10 0 [], .edit 2 (.consolidation "none")] ∧
      batch = [some 1, none, some 2, some 0, some 1] ∧
      store.perform (.resolveBatch batch .standard) =
        (.ok (.reports [⟨"b", "none"⟩, ⟨"b", "none"⟩]), after) ∧
      after.map (fun s => (s.reducer.isSome, s.unresolved, s.lookups)) =
        [(true, none, 1), (false, some ⟨"b", "none"⟩, 1), (false, none, 0)] ∧
      after[2]? = store[2]? := by
  obtain ⟨store, made⟩ : ∃ store : Store, store = Store.run []
    [.makeTagged "a" [.ofNat 1, .missing, .ofNat 3] 10 0 [], .regroup 0 2,
      .makeTagged "b" [.ofNat 1] 10 0 [], .edit 1 (.consolidation "none"), .regroup 1 2,
      .makeTagged "c" [.ofNat 1] 10 0 [], .edit 2 (.consolidation "none")] := ⟨_, rfl⟩
  let batch : Batch := [some 1, none, some 2, some 0, some 1]
  obtain ⟨unknowns, after, answer, _, each, _⟩ := isolated_of_resolve .standard batch store
  have known : (batch.resolve .standard store).1 = [⟨"b", "none"⟩, ⟨"b", "none"⟩] := by
    rw [made]
    decide +kernel
  have states : (batch.resolve .standard store).2.map
      (fun s => (s.reducer.isSome, s.unresolved, s.lookups)) =
        [(true, none, 1), (false, some ⟨"b", "none"⟩, 1), (false, none, 0)] := by
    rw [made]
    decide +kernel
  have ungrouped : store[2]?.map (·.grouping) = some 0 := by
    rw [made]
    decide +kernel
  have reported : (batch.resolve .standard store).1 = unknowns :=
    Answer.reports.inj (Except.ok.inj (congrArg Prod.fst answer))
  have left : (batch.resolve .standard store).2 = after := congrArg Prod.snd answer
  obtain ⟨c, found, single⟩ := Option.map_eq_some_iff.mp ungrouped
  have stays := (each 2 c found).2 (.inr (by rw [single]; decide))
  rw [reported.symm.trans known] at answer
  rw [left] at states
  exact ⟨store, after, batch, made, rfl, answer, states, stays.trans found.symm⟩

end Batch

end Rollup
