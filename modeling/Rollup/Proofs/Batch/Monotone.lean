import Rollup.Proofs.Batch.Arrangement

/-!
Planning is monotone. Main statement: a larger budget, a batch of fewer series and a larger step
never give more samples to a point, for whole numbers of any size, although the factors come from
quotients that are rounded to samples first.
-/

namespace Rollup

theorem Sample.ceil_mono {x y : Finite} {k j : Nat} (le : x.magnitude ≤ y.magnitude)
    (up : (Sample.finite x).ceil? = some k) (above : (Sample.finite y).ceil? = some j) : k ≤ j := by
  simp only [ceil?, Option.some.injEq] at up above
  rw [← up, ← above]
  exact Nat.div_le_div_right (by omega)

/-- A quotient that is no larger is not rounded up to more. -/
theorem ceilQuotient_mono {count budget count' budget' k j : Nat} (positive : 0 < budget)
    (positive' : 0 < budget') (le : count * budget' ≤ count' * budget)
    (rounded : ceilQuotient count budget = some k)
    (rounded' : ceilQuotient count' budget' = some j) : k ≤ j := by
  have scaled : count * Sample.one * budget' ≤ count' * Sample.one * budget := by
    calc
      count * Sample.one * budget' = count * budget' * Sample.one := Nat.mul_right_comm _ _ _
      _ ≤ count' * budget * Sample.one := Nat.mul_le_mul_right _ le
      _ = count' * Sample.one * budget := Nat.mul_right_comm _ _ _
  have near := Binary.nearest_mono (by decide : 1 < 53) positive positive' scaled
  rw [ceilQuotient] at rounded rounded'
  cases quotient : Sample.ofRatio false (count * Sample.one) budget with
  | missing | infinite =>
    rw [quotient] at rounded
    cases rounded
  | finite x =>
    cases quotient' : Sample.ofRatio false (count' * Sample.one) budget' with
    | missing | infinite =>
      rw [quotient'] at rounded'
      cases rounded'
    | finite y =>
      rw [quotient] at rounded
      rw [quotient'] at rounded'
      rw [← Sample.magnitude_of_ofRatio quotient, ← Sample.magnitude_of_ofRatio quotient'] at near
      exact Sample.ceil_mono near rounded rounded'

namespace Series

variable {span wide few many : Int} {s r : Series}

/-- Shorter spans have no more points, and neither have larger steps. -/
theorem points_mono {fine coarse : Int} (some_span : 0 < span) (spans : span ≤ wide)
    (forward : 0 < fine) (steps : fine ≤ coarse) : span.fdiv coarse ≤ wide.fdiv fine := by
  have nonneg : 0 ≤ span / coarse := Int.ediv_nonneg (by omega) (by omega)
  rw [Int.fdiv_eq_ediv_of_nonneg span (by omega), Int.fdiv_eq_ediv_of_nonneg wide (by omega),
    Int.le_ediv_iff_mul_le forward]
  calc
    span / coarse * fine ≤ span / coarse * coarse := Int.mul_le_mul_of_nonneg_left steps nonneg
    _ ≤ span := Int.ediv_mul_le span (by omega)
    _ ≤ wide := spans

/-- Of two series that were not grouped, the one with the smaller step, planned over a longer span
for a smaller budget, has no smaller factor, if it can be planned. -/
theorem plannedShape_mono [Runtime] (spans : span ≤ wide) (positive : 0 < few)
    (budgets : few ≤ many) (forward : 0 < r.step) (steps : r.step ≤ s.step)
    (single : s.grouping ≤ 1) (made : 0 < wide → r.planFault wide few = none) :
    max 1 (plannedShape span many s.step (s.grouping, s.view)).1 ≤
      max 1 (plannedShape wide few r.step (r.grouping, r.view)).1 := by
  by_cases within : span ≤ 0 ∨ span.fdiv s.step ≤ many
  · rw [plannedShape, if_pos within]
    omega
  · rw [plannedShape, if_neg within]
    rw [not_or, Int.not_le, Int.not_le] at within
    obtain ⟨some_span, beyond⟩ := within
    have points := points_mono some_span spans forward steps
    cases rounded : ceilQuotient (span.fdiv s.step).toNat many.toNat with
    | none =>
      simp only
      omega
    | some count =>
      -- the other series is beyond its budget too, and its quotient is no smaller
      have beyond' : ¬ wide.fdiv r.step ≤ few := by omega
      have some_step : r.step ≠ 0 := by omega
      have answered := made (by omega)
      simp only [planFault, plan, if_neg some_step, if_neg beyond'] at answered
      rw [plannedShape, if_neg (not_or.mpr ⟨by omega, beyond'⟩)]
      cases rounded' : ceilQuotient (wide.fdiv r.step).toNat few.toNat with
      | none =>
        rw [rounded'] at answered
        cases answered
      | some count' =>
        have scaled : (span.fdiv s.step).toNat * few.toNat ≤
            (wide.fdiv r.step).toNat * many.toNat :=
          Nat.mul_le_mul (Int.toNat_le_toNat points) (Int.toNat_le_toNat budgets)
        have least := ceilQuotient_mono (by omega) (by omega) scaled rounded rounded'
        simp only
        omega

end Series

namespace Batch

variable {store : Store} {batch part : Batch}

/-- A batch that holds all series of another one spans at least the time of the other. -/
theorem duration_mono (inside : ∀ i ∈ part.present store, i ∈ batch.present store)
    (some_series : part.present store ≠ []) : part.duration store ≤ batch.duration store := by
  have members (s : Series) (member : s ∈ part.series store) : s ∈ batch.series store := by
    obtain ⟨i, chosen, found⟩ := mem_series.mp member
    exact mem_series.mpr ⟨i, inside i chosen, found⟩
  have nonempty : part.series store ≠ [] := by
    obtain ⟨i, chosen⟩ := List.exists_mem_of_ne_nil _ some_series
    obtain ⟨s, found⟩ := exists_of_present chosen
    exact List.ne_nil_of_mem (mem_series.mpr ⟨i, chosen, found⟩)
  obtain ⟨⟨first, early, starts⟩, last, late, stops⟩ := timeRange_reached nonempty
  have low := (timeRange_holds (members first early)).1
  have high := (timeRange_holds (members last late)).2
  rw [duration, duration]
  omega

/-- The series at one position of a store has no more samples to a point than the one at a position
of another store. -/
def NoCoarser (before : Store) (i : Nat) (after : Store) (j : Nat) : Prop :=
  ∃ s r, before[i]? = some s ∧ after[j]? = some r ∧ max 1 s.grouping ≤ max 1 r.grouping

/-- Series as they come to the planner: with a step forward and not grouped yet. -/
def IsUngrouped (batch : Batch) (store : Store) : Prop :=
  ∀ s ∈ batch.series store, 0 < s.step ∧ s.grouping ≤ 1

/-- Two plans over one store: of a batch and of a part of it, with a budget that is no smaller for
the part. -/
theorem noCoarser_of_consolidate [Runtime] {few many : Int} {i j : Nat} {s r : Series}
    (ungrouped : batch.IsUngrouped store)
    (inside : ∀ k ∈ part.present store, k ∈ batch.present store) (budgets : few ≤ many)
    (whole : (batch.consolidate few store).1 = .ok ())
    (parted : (part.consolidate many store).1 = .ok ()) (chosen : i ∈ part.present store)
    (chosen' : j ∈ batch.present store) (found : store[i]? = some s) (found' : store[j]? = some r)
    (steps : r.step ≤ s.step) :
    NoCoarser (part.consolidate many store).2 i (batch.consolidate few store).2 j := by
  obtain ⟨_, positive, planned⟩ := consolidate_ok_iff.mp whole
  have single := (ungrouped s (mem_series.mpr ⟨i, inside i chosen, found⟩)).2
  have forward := (ungrouped r (mem_series.mpr ⟨j, chosen', found'⟩)).1
  have made (some_time : 0 < batch.duration store) :
      r.planFault (batch.duration store) few = none := by
    rcases planned with none | each
    · omega
    · exact each j chosen' r found'
  have durations := duration_mono inside (List.ne_nil_of_mem chosen)
  have factors := Series.plannedShape_mono durations positive budgets forward steps single made
  refine ⟨s.reshaped _, r.reshaped _, ?_, ?_, factors⟩
  · rw [getElem?_of_consolidate parted, if_pos chosen, found, Option.map_some]
  · rw [getElem?_of_consolidate whole, if_pos chosen', found', Option.map_some]

/-- Plans of series that were not grouped, whenever they are made. A larger budget gives no series
more samples to a point, a batch of fewer series does not either, and within a batch no series has
more of them than one with a step that is no larger. -/
theorem factors_monotone [Runtime] (ungrouped : batch.IsUngrouped store) :
    (∀ few many : Int, few ≤ many → (batch.consolidate few store).1 = .ok () →
      (batch.consolidate many store).1 = .ok () → ∀ i ∈ batch.present store,
        NoCoarser (batch.consolidate many store).2 i (batch.consolidate few store).2 i) ∧
    (∀ (part : Batch) (budget : Int), (∀ i ∈ part.present store, i ∈ batch.present store) →
      (part.consolidate budget store).1 = .ok () → (batch.consolidate budget store).1 = .ok () →
        ∀ i ∈ part.present store,
          NoCoarser (part.consolidate budget store).2 i (batch.consolidate budget store).2 i) ∧
    (∀ budget : Int, (batch.consolidate budget store).1 = .ok () →
      ∀ i ∈ batch.present store, ∀ j ∈ batch.present store, ∀ s r, store[i]? = some s →
        store[j]? = some r → s.step ≤ r.step →
          NoCoarser (batch.consolidate budget store).2 j (batch.consolidate budget store).2 i) := by
  refine ⟨?_, ?_, ?_⟩
  · intro few many budgets first second i chosen
    obtain ⟨s, found⟩ := exists_of_present chosen
    exact noCoarser_of_consolidate ungrouped (fun _ member => member) budgets first second chosen
      chosen found found (Int.le_refl _)
  · intro part budget inside parted whole i chosen
    obtain ⟨s, found⟩ := exists_of_present chosen
    exact noCoarser_of_consolidate ungrouped inside (Int.le_refl _) whole parted chosen
      (inside i chosen) found found (Int.le_refl _)
  · intro budget done i chosen j chosen' s r found found' steps
    exact noCoarser_of_consolidate ungrouped (fun _ member => member) (Int.le_refl _) done done
      chosen' chosen found' found steps

/-- Spans of many more points than samples tell apart. With the larger budget one series is just
beyond it and another one just within. -/
theorem factors_monotone_long :
    ∃ (store : Store) (batch part : Batch),
      store = Store.run [] [.makeTagged "a" [.ofNat 1] 3 0 [], .makeTagged "b" [] 7 (2 ^ 200) [],
        .makeTagged "c" [.missing] 3 (2 ^ 100) []] ∧
      batch = [some 0, none, some 1, some 2, some 0] ∧ part = [some 2, some 0] ∧
      batch.IsUngrouped store ∧ (∀ i ∈ part.present store, i ∈ batch.present store) ∧
      (batch.consolidate 5 store).1 = .ok () ∧ (part.consolidate 5 store).1 = .ok () ∧
      (batch.consolidate (2 ^ 198) store).1 = .ok () ∧
      (batch.consolidate (2 ^ 198) store).2.map (·.grouping) = [2, 0, 2] ∧
      NoCoarser (batch.consolidate (2 ^ 198) store).2 1 (batch.consolidate 5 store).2 1 ∧
      NoCoarser (part.consolidate 5 store).2 0 (batch.consolidate 5 store).2 0 ∧
      NoCoarser (batch.consolidate 5 store).2 1 (batch.consolidate 5 store).2 0 := by
  let store : Store := Store.run [] [.makeTagged "a" [.ofNat 1] 3 0 [],
    .makeTagged "b" [] 7 (2 ^ 200) [], .makeTagged "c" [.missing] 3 (2 ^ 100) []]
  let batch : Batch := [some 0, none, some 1, some 2, some 0]
  let part : Batch := [some 2, some 0]
  have ungrouped : batch.IsUngrouped store := by
    have each : ∀ s ∈ batch.series store, 0 < s.step ∧ s.grouping ≤ 1 := by decide +kernel
    exact each
  have inside : ∀ i ∈ part.present store, i ∈ batch.present store := by decide +kernel
  have low : (batch.consolidate 5 store).1 = .ok () := by decide +kernel
  have high : (batch.consolidate (2 ^ 198) store).1 = .ok () := by decide +kernel
  have parted : (part.consolidate 5 store).1 = .ok () := by decide +kernel
  have first : 0 ∈ batch.present store := by decide +kernel
  have second : 1 ∈ batch.present store := by decide +kernel
  have steps : store[0]?.map (·.step) = some 3 ∧ store[1]?.map (·.step) = some 7 := by
    decide +kernel
  obtain ⟨a, found, fine⟩ := Option.map_eq_some_iff.mp steps.1
  obtain ⟨b, found', coarse⟩ := Option.map_eq_some_iff.mp steps.2
  obtain ⟨budgets, parts, pairs⟩ := factors_monotone ungrouped
  exact ⟨store, batch, part, rfl, rfl, rfl, ungrouped, inside, low, parted, high,
    by decide +kernel, budgets 5 (2 ^ 198) (by decide) low high 1 second,
    parts part 5 inside parted low 0 (by decide +kernel),
    pairs 5 low 0 first 1 second a b found found' (by rw [fine, coarse]; decide)⟩

end Batch

end Rollup
