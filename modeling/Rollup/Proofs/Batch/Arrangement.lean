import Rollup.Proofs.Batch.Factor

/-!
Planning does not depend on how a batch is arranged. Main statement: batches that name the same
series, in any order and any number of times, are planned or refused together, and planning leaves
them in the same state, in which each series has a factor and a view that follow from the range of
the batch, the budget and the series alone.
-/

namespace Rollup

namespace Series

/-- The factor and the view that planning over a span leaves to a series with a step. -/
def plannedShape (span budget step : Int) (shape : Int × Option (List Sample)) :
    Int × Option (List Sample) :=
  if span ≤ 0 ∨ span.fdiv step ≤ budget then shape
  else
    match ceilQuotient (span.fdiv step).toNat budget.toNat with
    | none => shape
    | some count => (count, none)

/-- A series with another factor and another view. -/
def reshaped (s : Series) (shape : Int × Option (List Sample)) : Series :=
  { s with grouping := shape.1, view := shape.2 }

theorem reshaped_self (s : Series) : s.reshaped (s.grouping, s.view) = s := rfl

theorem plannedShape_of_no_span {span : Int} (none : span ≤ 0) (budget step : Int)
    (shape : Int × Option (List Sample)) : plannedShape span budget step shape = shape := by
  rw [plannedShape, if_pos (.inl none)]

theorem planned_eq_reshaped [Runtime] {span budget : Int} (some_span : 0 < span)
    (positive : 0 < budget) (s : Series) :
    s.planned span budget =
      s.reshaped (plannedShape span budget s.step (s.grouping, s.view)) := by
  have spans : ¬ span ≤ 0 := by omega
  by_cases within : span.fdiv s.step ≤ budget
  · rw [planned_of_within within, plannedShape, if_pos (.inr within), reshaped_self]
  · have some_step : s.step ≠ 0 := by
      intro zero
      rw [zero, Int.fdiv_zero] at within
      omega
    rw [plannedShape, if_neg (not_or.mpr ⟨spans, within⟩)]
    cases quotient : ceilQuotient (span.fdiv s.step).toNat budget.toNat with
    | none =>
      rw [reshaped_self]
      simp [planned, plan, some_step, within, quotient]
    | some count =>
      simp [planned, plan, some_step, within, quotient, regroup_of_ceilQuotient quotient, reshaped]

end Series

namespace Batch

variable {store : Store} {batch other : Batch} {span budget : Int} {positions : List Nat}

/-- The range of some series depends neither on their order nor on their repeats. -/
theorem timeRange_congr {series others : List Series} (same : ∀ s, s ∈ series ↔ s ∈ others) :
    timeRange series = timeRange others := by
  cases series with
  | nil =>
    have none : others = [] := List.eq_nil_iff_forall_not_mem.mpr fun s => by simp [← same]
    rw [none]
  | cons s rest =>
    obtain ⟨⟨a, a_member, a_start⟩, b, b_member, b_stop⟩ :=
      timeRange_reached (List.cons_ne_nil s rest)
    obtain ⟨⟨c, c_member, c_start⟩, d, d_member, d_stop⟩ :=
      timeRange_reached (List.ne_nil_of_mem ((same s).mp List.mem_cons_self))
    apply Prod.ext
    · apply Int.le_antisymm
      · rw [← c_start]
        exact (timeRange_holds ((same c).mpr c_member)).1
      · rw [← a_start]
        exact (timeRange_holds ((same a).mp a_member)).1
    · apply Int.le_antisymm
      · rw [← b_stop]
        exact (timeRange_holds ((same b).mp b_member)).2
      · rw [← d_stop]
        exact (timeRange_holds ((same d).mpr d_member)).2

section

variable [Runtime]

/-- A plan is made exactly if one can be made for each series by itself. -/
theorem planAll_ok_iff :
    (planAll span budget positions store).1 = .ok () ↔
      ∀ i ∈ positions, ∀ s, store[i]? = some s → s.planFault span budget = none := by
  have faults : (positions.findSome? fun i => store[i]?.bind (Series.planFault span budget)) =
      none ↔ ∀ i ∈ positions, ∀ s, store[i]? = some s → s.planFault span budget = none := by
    simp only [List.findSome?_eq_none_iff, Option.bind_eq_none_iff]
  rw [planAll_fst, ← faults]
  split
  · next none => simp [none]
  · next fault some => simp [some]

/-- A plan changes each series that it reaches by itself. -/
theorem getElem?_planAll (done : (planAll span budget positions store).1 = .ok ()) (i : Nat) :
    (planAll span budget positions store).2[i]? =
      if i ∈ positions then store[i]?.map (Series.planned span budget) else store[i]? := by
  obtain ⟨visited, _, walked, whole⟩ := Store.planAll_walk span budget positions store
  rw [walked, whole done]
  split
  · next member =>
    exact Store.getElem?_walk_of_mem (Series.isPlanning_planned span budget).again member
  · next outside => exact Store.getElem?_walk_of_not_mem outside

theorem consolidate_ok_iff :
    (batch.consolidate budget store).1 = .ok () ↔
      isWritable budget = true ∧ 0 < budget ∧ (batch.duration store ≤ 0 ∨
        ∀ i ∈ batch.present store, ∀ s, store[i]? = some s →
          s.planFault (batch.duration store) budget = none) := by
  rcases consolidate_cases budget batch store with
    ⟨limit, long, failed⟩ | ⟨few, _, failed⟩ | ⟨writable, positive, planned⟩
  · simp [failed, isWritable, long]
  · simp [failed, Int.not_lt.mpr few]
  · rw [planned]
    split
    · next none => simp [writable, positive, none]
    · next time => simp [writable, positive, time, planAll_ok_iff]

/-- What planning leaves of a series follows from the range of its batch, the budget and the step,
the factor and the view of the series. -/
theorem getElem?_of_consolidate (done : (batch.consolidate budget store).1 = .ok ()) (i : Nat) :
    (batch.consolidate budget store).2[i]? =
      if i ∈ batch.present store then
        store[i]?.map fun s => s.reshaped
          (Series.plannedShape (batch.duration store) budget s.step (s.grouping, s.view))
      else store[i]? := by
  obtain ⟨writable, positive, _⟩ := consolidate_ok_iff.mp done
  rw [consolidate_of_positive writable positive] at done ⊢
  by_cases none : batch.duration store ≤ 0
  · rw [if_pos none]
    simp only [Series.plannedShape_of_no_span none, Series.reshaped_self, Option.map_id', ite_self]
  · rw [if_neg none] at done ⊢
    rw [getElem?_planAll done]
    congr
    funext s
    exact Series.planned_eq_reshaped (Int.not_le.mp none) positive s

/-- Two batches of the same series, in any order, with any repeats and any empty slots, have one
range and are planned or refused together. A plan leaves the same store for both: each series of the
batch has the shape that follows from the range, the budget and its own step and shape, and all
others are as they were. -/
theorem consolidate_rearranged
    (same : ∀ i, i ∈ batch.present store ↔ i ∈ other.present store) (budget : Int) :
    timeRange (batch.series store) = timeRange (other.series store) ∧
    ((batch.consolidate budget store).1 = .ok () ↔ (other.consolidate budget store).1 = .ok ()) ∧
    ((batch.consolidate budget store).1 = .ok () →
      (batch.consolidate budget store).2 = (other.consolidate budget store).2 ∧
      ∀ i, (batch.consolidate budget store).2[i]? =
        if i ∈ batch.present store then
          store[i]?.map fun s => s.reshaped
            (Series.plannedShape (batch.duration store) budget s.step (s.grouping, s.view))
        else store[i]?) := by
  have members (s : Series) : s ∈ batch.series store ↔ s ∈ other.series store := by
    simp only [mem_series, same]
  have range := timeRange_congr members
  have durations : batch.duration store = other.duration store := by
    rw [duration, duration, range]
  have together : (batch.consolidate budget store).1 = .ok () ↔
      (other.consolidate budget store).1 = .ok () := by
    simp only [consolidate_ok_iff, durations, same]
  refine ⟨range, together, fun done => ⟨?_, getElem?_of_consolidate done⟩⟩
  apply List.ext_getElem?
  intro i
  rw [getElem?_of_consolidate done, getElem?_of_consolidate (together.mp done), durations]
  simp only [same]

end

/-- A series that is regrouped twice in one batch and once in the other, where it comes last, and
one within the budget that keeps its factor and its view. -/
theorem consolidate_rearranged_repeated :
    ∃ (store after : Store) (batch other : Batch),
      store = Store.run [] [
        .makeTagged "a" [.ofNat 1, .missing, .ofNat 3, .ofNat 4, .ofNat 5, .ofNat 6, .ofNat 7] 10 0
          [],
        .aggregated 0, .makeTagged "b" [.ofNat 1] 60 30 [], .regroup 1 2, .aggregated 1] ∧
      batch = [some 0, none, some 1, some 0] ∧ other = [some 1, some 0] ∧
      (∀ i, i ∈ batch.present store ↔ i ∈ other.present store) ∧
      batch.consolidate 3 store = (.ok (), after) ∧ other.consolidate 3 store = (.ok (), after) ∧
      after.map (fun s => (s.grouping, s.view.isSome)) = [(3, false), (2, true)] := by
  let store : Store := Store.run [] [
    .makeTagged "a" [.ofNat 1, .missing, .ofNat 3, .ofNat 4, .ofNat 5, .ofNat 6, .ofNat 7] 10 0 [],
    .aggregated 0, .makeTagged "b" [.ofNat 1] 60 30 [], .regroup 1 2, .aggregated 1]
  let batch : Batch := [some 0, none, some 1, some 0]
  let other : Batch := [some 1, some 0]
  have same : ∀ i, i ∈ batch.present store ↔ i ∈ other.present store := by
    have first : batch.present store = [0, 1, 0] := by decide +kernel
    have second : other.present store = [1, 0] := by decide +kernel
    intro i
    simp only [first, second, List.mem_cons, List.not_mem_nil, or_false]
    omega
  have done : (batch.consolidate 3 store).1 = .ok () := by decide +kernel
  have shapes : (batch.consolidate 3 store).2.map (fun s => (s.grouping, s.view.isSome)) =
      [(3, false), (2, true)] := by
    decide +kernel
  obtain ⟨_, together, outcome⟩ := consolidate_rearranged same 3
  have again := together.mp done
  have equal := (outcome done).1
  rcases planned : batch.consolidate 3 store with ⟨_, after⟩
  rcases replanned : other.consolidate 3 store with ⟨_, last⟩
  simp only [planned, replanned] at done again equal shapes
  subst done again equal
  exact ⟨_, _, _, _, rfl, rfl, rfl, same, planned, replanned, shapes⟩

end Batch

end Rollup
