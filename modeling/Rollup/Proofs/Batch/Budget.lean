import Mathlib.Tactic.Linarith
import Rollup.Proofs.Batch.Plan
import Rollup.Proofs.Format.Json
import Rollup.Proofs.Series.Times

/-!
A budget of points is kept. Main statement: after planning, no view that a series of the batch
answers has more points than the budget, and no array of points in a document planned for it does,
although the factors come from a rounded quotient over the span of the whole batch.
-/

namespace Rollup

namespace Series

/-- No view of the series, kept or worked out now, can have more points than the budget. -/
structure Within (budget : Int) (s : Series) : Prop where
  coherent : s.Coherent
  few : (s.values.length : Int) ≤ budget * max 1 s.grouping

theorem Within.length_le {budget : Int} {s : Series} (within : s.Within budget)
    {view : List Sample} (read : s.aggregated.1 = .ok view) : (view.length : Int) ≤ budget := by
  have few := within.few
  rw [← s.perPoint_eq] at few
  have nonneg : 0 ≤ budget := by
    by_contra negative
    have : budget * s.perPoint < 0 :=
      Int.mul_neg_of_neg_of_pos (by omega) (by exact_mod_cast s.perPoint_pos)
    omega
  obtain ⟨most, rfl⟩ := Int.eq_ofNat_of_zero_le nonneg
  have covered : s.values.length ≤ s.perPoint * most := by
    rw [Nat.mul_comm]
    exact_mod_cast few
  have bounded : ¬ most < s.pointCount := by
    rw [lt_pointCount_iff]
    omega
  rw [length_of_aggregate (within.coherent.current.aggregate_of_aggregated read)]
  omega

/-- A span that holds all samples of a series has at least as many points as the series. -/
theorem length_le_points {span : Int} {s : Series} (step : 0 < s.step)
    (spanned : s.step * s.values.length ≤ span) :
    (s.values.length : Int) ≤ span.fdiv s.step := by
  rw [Int.fdiv_eq_ediv_of_nonneg span (by omega), Int.le_ediv_iff_mul_le step, Int.mul_comm]
  exact spanned

theorem IsPlanned.within {span budget : Int} {s : Series} (planned : s.IsPlanned span budget)
    (positive : 0 < budget) (coherent : s.Coherent) (step : 0 < s.step)
    (spanned : s.step * s.values.length ≤ span) (small : s.values.length ≤ 2 ^ 53) :
    s.Within budget := by
  have fewer := length_le_points step spanned
  refine ⟨coherent, ?_⟩
  rcases planned with within | ⟨beyond, count, rounded, grouping⟩
  · calc
      (s.values.length : Int) ≤ budget * 1 := by omega
      _ ≤ budget * max 1 s.grouping :=
        Int.mul_le_mul_of_nonneg_left (Int.le_max_left 1 _) (by omega)
  · have bound : s.values.length ≤ count * budget.toNat :=
      le_ceilQuotient (by omega) (by omega) (by omega) small rounded
    have nonneg : 0 ≤ budget := by omega
    calc
      (s.values.length : Int) ≤ count * budget.toNat := by exact_mod_cast bound
      _ = budget * count := by rw [Int.toNat_of_nonneg nonneg, Int.mul_comm]
      _ ≤ budget * max 1 s.grouping := by
        rw [grouping]
        exact Int.mul_le_mul_of_nonneg_left (Int.le_max_right 1 _) nonneg

end Series

namespace Batch

variable {store after : Store} {batch : Batch} {span budget : Int}

/-- Series as a caller of the planner has them. -/
def IsReady (store : Store) (batch : Batch) : Prop :=
  ∀ s ∈ batch.series store,
    s.check true = .ok () ∧ s.Coherent ∧ s.values.length ≤ 2 ^ 53

theorem consolidate_within [Runtime] (ready : IsReady store batch)
    (done : batch.consolidate budget store = (.ok (), after)) :
    ∀ s ∈ batch.series after, s.Within budget ∧ s.tags.allText = true := by
  have evolves := Store.consolidate_evolves budget batch store
  rw [done] at evolves
  intro s member
  obtain ⟨i, chosen, found⟩ := mem_series.mp member
  rw [present_eq evolves.length_eq.symm] at chosen
  obtain ⟨r, earlier, steps⟩ := Store.found_before evolves found
  have before : r ∈ batch.series store := mem_series.mpr ⟨i, chosen, earlier⟩
  obtain ⟨checked, held, small⟩ := ready r before
  have sound := Series.check_eq_ok_iff.mp checked
  have coherent : s.Coherent :=
    Store.invariant_steps (fun _ _ => Series.Step.coherent) steps held
  have values : s.values = r.values := by rw [steps.frame]
  have step : s.step = r.step := by rw [steps.frame]
  have tags : s.tags = r.tags := by rw [steps.frame]
  obtain ⟨start, stop⟩ := timeRange_holds before
  have spanned : s.step * s.values.length ≤
      (timeRange (batch.series store)).2 - (timeRange (batch.series store)).1 := by
    have bounds := sound.stop
    rw [step, values]
    omega
  have forward : 0 < s.step := by
    rw [step]
    exact sound.step
  constructor
  · rcases consolidate_cases budget batch store with
      ⟨_, _, failed⟩ | ⟨_, _, failed⟩ | ⟨_, positive, outcome⟩
    · rw [failed] at done
      cases done
    · rw [failed] at done
      cases done
    · rw [outcome, duration] at done
      split at done
      · next none =>
        have empty : s.values.length = 0 := by
          by_contra some_value
          have least : s.step ≤ s.step * s.values.length := by
            calc
              s.step = s.step * 1 := (Int.mul_one _).symm
              _ ≤ s.step * s.values.length :=
                Int.mul_le_mul_of_nonneg_left (by omega) (Int.le_of_lt forward)
          omega
        constructor
        · exact coherent
        · rw [empty]
          exact Int.mul_nonneg (by omega) (by omega)
      · next some =>
        have planned := planAll_isPlanned done found (.inl chosen)
        apply planned.within positive coherent forward spanned
        rw [values]
        exact small
  · rw [tags]
    exact sound.texts

theorem resolvedBy_within {s : Series} (registry : Registry) (within : s.Within budget) :
    (s.resolvedBy registry).Within budget := by
  have steps := Series.resolvedBy_steps registry s
  constructor
  · exact Store.invariant_steps (fun _ _ => Series.Step.coherent) steps within.coherent
  · have values : (s.resolvedBy registry).values = s.values := by rw [steps.frame]
    have grouping : (s.resolvedBy registry).grouping = s.grouping := by
      rw [Series.resolvedBy]
      split
      · rfl
      · rw [Series.resolve_frame]
    rw [values, grouping]
    exact within.few

/-- The value has an array of points no longer than the budget. -/
def HasPointsWithin (budget : Int) (v : Json.Value) : Prop :=
  ∃ target points tags,
    v = .object [("target", .text target), ("datapoints", .array points), ("tags", .object tags)] ∧
    (points.length : Int) ≤ budget

theorem hasPointsWithin_of_entry {s : Series} {e : Json.Entry} (within : s.Within budget)
    (texts : s.tags.allText = true) (written : (Json.entry s).1 = .ok (.ok e)) :
    ∃ v, Json.Denotes e.text v ∧ HasPointsWithin budget v := by
  rcases Json.entry_cases s with
    ⟨unknown, _, left⟩ | ⟨fault, failed⟩ | ⟨view, times, _, read, _, length, shown⟩
  · rw [left] at written
    cases written
  · rw [failed] at written
    cases written
  · rw [shown] at written
    cases written
    obtain ⟨points, tags, denotes, meanings, _⟩ :=
      Json.denotes_text (e := ⟨s.name, view.zip times, s.tags⟩) texts
    refine ⟨_, denotes, _, points, tags, rfl, ?_⟩
    have bound := within.length_le read
    rw [← meanings.length_eq, List.length_zip, length, Nat.min_self]
    exact bound

theorem encoded_within [Runtime] (ready : IsReady store batch) {next : Store}
    (planned : batch.consolidate budget store = (.ok (), next)) (registry : Registry) :
    ∀ s ∈ batch.series (batch.resolve registry next).2,
      s.Within budget ∧ s.tags.allText = true := by
  have kept : List.Forall₂ (fun r s : Series => r.Within budget ∧ r.tags.allText = true →
      s.Within budget ∧ s.tags.allText = true) next (batch.resolve registry next).2 := by
    rw [resolve, Store.resolveAll_walk]
    apply Store.related_walk (List.forall₂_same.mpr fun _ _ => id)
    intro r s before holds
    obtain ⟨within, texts⟩ := before holds
    refine ⟨resolvedBy_within registry within, ?_⟩
    rw [(Series.resolvedBy_steps registry s).frame]
    exact texts
  intro s member
  obtain ⟨i, chosen, found⟩ := mem_series.mp member
  rw [present_eq kept.length_eq.symm] at chosen
  obtain ⟨r, earlier, goes_on⟩ := Store.found_before kept found
  exact goes_on (consolidate_within ready planned r (mem_series.mpr ⟨i, chosen, earlier⟩))

theorem points_of_encode [Runtime] (ready : IsReady store batch) {name : Text}
    (json : Format.ofName? name = some .json) {config : Config} {document : Document}
    {unknowns : List UnknownReducer}
    (answer : batch.encode name (some budget) config store = (.ok (document, unknowns), after)) :
    ∃ text objects, document = .text text ∧ Json.read text = some (.array objects) ∧
      ∀ v ∈ objects, HasPointsWithin budget v := by
  simp only [encode, json] at answer
  rcases planned : batch.consolidate budget store with ⟨fault | done, next⟩
  · rw [planned] at answer
    cases answer
  · rw [planned] at answer
    have within := encoded_within ready planned .standard
    simp only [Format.write, Json.encode] at answer
    generalize (batch.resolve .standard next).2 = resolved at answer within
    rcases written : Json.contents (batch.present resolved) resolved with ⟨fault | found, last⟩
    · rw [written] at answer
      cases answer
    · rw [written] at answer
      cases answer
      have limited : ∀ s ∈ batch.series resolved, ∀ e, (Json.entry s).1 = .ok (.ok e) →
          ∃ v, Json.Denotes e.text v ∧ HasPointsWithin budget v := by
        intro s member e shown
        obtain ⟨few, texts⟩ := within s member
        exact hasPointsWithin_of_entry few texts shown
      obtain ⟨objects, whole, meanings⟩ := Json.denotes_document written limited
      have each := forall_of_forall₂ meanings.flip fun _ _ few => few
      exact ⟨_, objects, rfl, Json.read_of_denotes whole, each⟩

/-- A planned batch keeps its budget: in every view that a series of it answers afterwards, and in
every array of points of a document written with that budget. -/
theorem view_within_budget [Runtime] (ready : IsReady store batch) (budget : Int) :
    (∀ after, batch.consolidate budget store = (.ok (), after) →
      ∀ s ∈ batch.series after, ∀ view, s.aggregated.1 = .ok view →
        (view.length : Int) ≤ budget) ∧
    ∀ name config document unknowns after, Format.ofName? name = some .json →
      batch.encode name (some budget) config store = (.ok (document, unknowns), after) →
        ∃ text objects, document = .text text ∧ Json.read text = some (.array objects) ∧
          ∀ v ∈ objects, HasPointsWithin budget v := by
  constructor
  · intro after planned s member view read
    exact (consolidate_within ready planned s member).1.length_le read
  · intro name config document unknowns after json answer
    exact points_of_encode ready json answer

theorem view_within_budget_repeated :
    ∃ (store : Store) (batch : Batch),
      store = Store.run [] [
        .makeTagged "a" [.ofNat 1, .missing, .ofNat 3, .ofNat 4, .ofNat 5, .ofNat 6, .ofNat 7] 10 0
          [("k", .text "v")],
        .makeTagged "b" [.ofNat 1, .ofNat 2] 10 0 [], .regroup 1 2, .aggregated 1] ∧
      batch = [some 0, none, some 1, some 0] ∧ IsReady store batch ∧
      (∃ after, batch.consolidate 3 store = (.ok (), after) ∧
        ∀ s ∈ batch.series after, ∀ view, s.aggregated.1 = .ok view → (view.length : Int) ≤ 3) ∧
      ∃ text unknowns after objects,
        batch.encode "JSON" (some 3) {} store = (.ok (.text text, unknowns), after) ∧
          Json.read text = some (.array objects) ∧ ∀ v ∈ objects, HasPointsWithin 3 v := by
  let operations : List Operation := [
    .makeTagged "a" [.ofNat 1, .missing, .ofNat 3, .ofNat 4, .ofNat 5, .ofNat 6, .ofNat 7] 10 0
      [("k", .text "v")],
    .makeTagged "b" [.ofNat 1, .ofNat 2] 10 0 [], .regroup 1 2, .aggregated 1]
  let store : Store := Store.run [] operations
  let batch : Batch := [some 0, none, some 1, some 0]
  have ready : IsReady store batch := by
    have sound : (batch.series store).all
        (fun s => (s.check true).isOk && decide (s.values.length ≤ 2 ^ 53)) = true := by
      decide +kernel
    intro s member
    have both := List.all_eq_true.mp sound s member
    rw [Bool.and_eq_true] at both
    obtain ⟨i, _, found⟩ := mem_series.mp member
    have calls : ∀ operation ∈ operations, operation.IsCall := by
      simp [operations, Operation.IsCall]
    refine ⟨?_, Series.coherent_of_run calls s (List.mem_of_getElem? found),
      of_decide_eq_true both.2⟩
    rcases checked : s.check true with fault | ⟨⟩
    · rw [checked] at both
      cases both.1
    · rfl
  obtain ⟨views, points⟩ := view_within_budget ready 3
  refine ⟨store, batch, rfl, rfl, ready, ?_, ?_⟩
  · have planned : (batch.consolidate 3 store).1.isOk = true := by decide +kernel
    rcases done : batch.consolidate 3 store with ⟨fault | ⟨⟩, after⟩
    · rw [done] at planned
      cases planned
    · exact ⟨after, rfl, views after done⟩
  · have written : (batch.encode "JSON" (some 3) {} store).1.isOk = true := by decide +kernel
    rcases done : batch.encode "JSON" (some 3) {} store with ⟨fault | ⟨document, unknowns⟩, after⟩
    · rw [done] at written
      cases written
    · obtain ⟨text, objects, rfl, read, each⟩ :=
        points _ _ document unknowns after (by decide +kernel) done
      exact ⟨text, unknowns, after, objects, rfl, read, each⟩

end Batch

end Rollup
