import Mathlib.Tactic.Linarith
import Rollup.Proofs.Sample.Rounding
import Rollup.Proofs.Store.Evolution

/-!
What planning does to a batch. Main statements: the factor of a series is never below the quotient
of its samples and the budget, although that quotient is rounded first, and planning leaves each
series of the batch planned for the span of the batch, which holds the span of the series.
-/

namespace Rollup

theorem Sample.two_pow_lt_one : 2 ^ 53 < one := by decide +kernel

theorem Sample.le_ceil {x : Finite} {k : Nat} (up : (Sample.finite x).ceil? = some k) :
    x.magnitude ≤ k * one := by
  have positive := Sample.one_pos
  simp only [ceil?, Option.some.injEq] at up
  subst up
  -- the units of one are too many for a step that evaluates them
  generalize Sample.one = one at positive ⊢
  have division := Nat.div_add_mod (x.magnitude + one - 1) one
  have small := Nat.mod_lt (x.magnitude + one - 1) positive
  rw [Nat.mul_comm]
  omega

theorem Sample.ceil_le {x : Finite} {j k : Nat} (up : (Sample.finite x).ceil? = some k)
    (below : x.magnitude ≤ j * one) : k ≤ j := by
  have positive := Sample.one_pos
  simp only [ceil?, Option.some.injEq] at up
  subst up
  generalize Sample.one = one at positive below ⊢
  have above : x.magnitude + one - 1 < (j + 1) * one := by
    rw [Nat.add_mul]
    omega
  exact Nat.lt_succ_iff.mp ((Nat.div_lt_iff_lt_mul positive).mpr above)

/-- The numeral of a quotient is not above the whole number it is rounded up to. -/
theorem nearest_le_of_ceilQuotient {count budget k : Nat}
    (rounded : ceilQuotient count budget = some k) :
    (Binary.nearest 53 (count * Sample.one) budget).significand *
      2 ^ (Binary.nearest 53 (count * Sample.one) budget).exponent ≤ k * Sample.one := by
  rw [ceilQuotient] at rounded
  cases quotient : Sample.ofRatio false (count * Sample.one) budget with
  | finite x =>
    rw [quotient] at rounded
    rw [← Sample.magnitude_of_ofRatio quotient]
    exact Sample.le_ceil rounded
  | missing | infinite =>
    rw [quotient] at rounded
    cases rounded

/-- Were the whole number too small for the samples, the quotient would exceed it by at least one
part of the budget, which is more than half a unit of the last digit of a numeral this small. -/
theorem le_mul_of_near {one count budget n k s e : Nat} (beyond : budget < count)
    (fewer : n ≤ count) (small : n ≤ 2 ^ 53) (large : 2 ^ 53 < one) (form : e = 0 ∨ 2 ^ 52 ≤ s)
    (near : 2 * (count * one) ≤ (2 * s + 1) * (budget * 2 ^ e)) (up : s * 2 ^ e ≤ k * one) :
    n ≤ k * budget := by
  by_contra short
  have more : k * budget + 1 ≤ n := by omega
  have scaled : (k * budget + 1) * one ≤ count * one :=
    Nat.mul_le_mul_right one (Nat.le_trans more fewer)
  have below : budget * (s * 2 ^ e) ≤ budget * (k * one) := Nat.mul_le_mul_left budget up
  have apart : 2 * one ≤ budget * 2 ^ e := by linarith
  rcases form with rfl | full
  · -- on the finest grid only a budget beyond the samples could be that far
    rw [Nat.pow_zero, Nat.mul_one] at apart near up
    rcases Nat.eq_zero_or_pos k with rfl | positive
    · have none : s = 0 := by omega
      have many : count ≤ count * one := Nat.le_mul_of_pos_right count (by omega)
      rw [none] at near
      omega
    · have : budget ≤ k * budget := Nat.le_mul_of_pos_left budget positive
      omega
  · have most : (k * budget + 1) * one ≤ 2 ^ 53 * one :=
      Nat.mul_le_mul_right one (Nat.le_trans more small)
    have least : 2 ^ 52 * (budget * 2 ^ e) ≤ s * (budget * 2 ^ e) := Nat.mul_le_mul_right _ full
    linarith

theorem le_ceilQuotient {count budget n k : Nat} (positive : 0 < budget) (beyond : budget < count)
    (fewer : n ≤ count) (small : n ≤ 2 ^ 53) (rounded : ceilQuotient count budget = some k) :
    n ≤ k * budget :=
  le_mul_of_near beyond fewer small Sample.two_pow_lt_one
    (Binary.nearest_normal (by decide)) (Binary.le_nearest (by decide) positive)
    (nearest_le_of_ceilQuotient rounded)

/-- The factors of plans are no larger than samples get. -/
theorem ceilQuotient_le_two_pow {count budget k : Nat}
    (rounded : ceilQuotient count budget = some k) : k ≤ 2 ^ 1024 := by
  rw [ceilQuotient] at rounded
  cases quotient : Sample.ofRatio false (count * Sample.one) budget with
  | finite x =>
    rw [quotient] at rounded
    have top : 2 ^ 53 * 2 ^ 2045 = 2 ^ 1024 * Sample.one := by decide +kernel
    have bounded {e : Nat} (below : x.exponent ≤ e) : x.magnitude ≤ 2 ^ 53 * 2 ^ e :=
      Nat.mul_le_mul (Nat.le_of_lt x.significand_lt) (Nat.pow_le_pow_right Nat.two_pos below)
    exact Sample.ceil_le rounded (Nat.le_trans (bounded x.exponent_le) (Nat.le_of_eq top))
  | missing | infinite =>
    rw [quotient] at rounded
    cases rounded

namespace Series

theorem regroup_of_ceilQuotient [Runtime] {count budget k : Nat}
    (rounded : ceilQuotient count budget = some k) (s : Series) :
    s.regroup k = .ok { s with grouping := k, view := none } := by
  have most : 2 ^ 1024 < 10 ^ leastDigitLimit := by decide +kernel
  have short : (k : Int).natAbs < 10 ^ leastDigitLimit :=
    Nat.lt_of_le_of_lt (ceilQuotient_le_two_pow rounded) most
  exact regroup_eq_ok_iff.mpr ⟨isWritable_of_lt short, Int.natCast_nonneg k, rfl⟩

/-- Planned over a span: left as it is within the budget, and grouped by the quotient beyond it. -/
def IsPlanned (span budget : Int) (s : Series) : Prop :=
  span.fdiv s.step ≤ budget ∨
    (budget < span.fdiv s.step ∧
      ∃ count : Nat, ceilQuotient (span.fdiv s.step).toNat budget.toNat = some count ∧
        s.grouping = count)

theorem isPlanned_of_plan [Runtime] {span budget : Int} {s after : Series}
    (done : s.plan span budget = .ok after) : after.IsPlanned span budget := by
  simp only [plan] at done
  split at done
  · cases done
  · split at done
    · next within =>
      cases done
      exact .inl within
    · next beyond =>
      split at done
      · cases done
      · next count rounded =>
        obtain ⟨_, _, rfl⟩ := regroup_eq_ok_iff.mp done
        exact .inr ⟨lt_of_not_ge beyond, count, rounded, rfl⟩

end Series

namespace Batch

variable {store after : Store} {batch : Batch} {span budget : Int}

theorem exists_of_present {i : Nat} (chosen : i ∈ batch.present store) :
    ∃ s, store[i]? = some s := by
  have bound : i < store.length := by simpa using (List.mem_filter.mp chosen).2
  exact ⟨_, List.getElem?_eq_getElem bound⟩

theorem mem_series {s : Series} :
    s ∈ batch.series store ↔ ∃ i ∈ batch.present store, store[i]? = some s :=
  List.mem_filterMap

/-- What holds of the series of a batch, in order, holds at the positions that the batch names. -/
theorem related_present {α : Type} {holds : Series → α → Prop} {results : List α}
    (each : List.Forall₂ holds (batch.series store) results) :
    List.Forall₂ (fun j result => ∃ s, store[j]? = some s ∧ holds s result)
      (batch.present store) results := by
  have exist (j : Nat) (chosen : j ∈ batch.present store) : ∃ s, store[j]? = some s :=
    exists_of_present chosen
  rw [series] at each
  generalize batch.present store = positions at each exist ⊢
  induction positions generalizing results with
  | nil =>
    cases each
    exact .nil
  | cons j rest ih =>
    obtain ⟨s, found⟩ := exist j (by simp)
    rw [List.filterMap_cons_some found] at each
    cases each with
    | cons first others =>
      exact .cons ⟨s, found, first⟩
        (ih others fun k member => exist k (List.mem_cons_of_mem _ member))

theorem present_eq (same : after.length = store.length) :
    batch.present after = batch.present store := by
  simp [present, same]

theorem foldl_min_le (rest : List Series) (first : Int) :
    rest.foldl (fun start r => min start r.start) first ≤ first ∧
      ∀ s ∈ rest, rest.foldl (fun start r => min start r.start) first ≤ s.start := by
  induction rest generalizing first with
  | nil => simp
  | cons r rest ih =>
    obtain ⟨below, all⟩ := ih (min first r.start)
    rw [List.foldl_cons]
    constructor
    · exact Int.le_trans below (Int.min_le_left _ _)
    · intro s member
      rcases List.mem_cons.mp member with rfl | later
      · exact Int.le_trans below (Int.min_le_right _ _)
      · exact all s later

theorem le_foldl_max (rest : List Series) (first : Int) :
    first ≤ rest.foldl (fun stop r => max stop r.stop) first ∧
      ∀ s ∈ rest, s.stop ≤ rest.foldl (fun stop r => max stop r.stop) first := by
  induction rest generalizing first with
  | nil => simp
  | cons r rest ih =>
    obtain ⟨above, all⟩ := ih (max first r.stop)
    rw [List.foldl_cons]
    constructor
    · exact Int.le_trans (Int.le_max_left _ _) above
    · intro s member
      rcases List.mem_cons.mp member with rfl | later
      · exact Int.le_trans (Int.le_max_right _ _) above
      · exact all s later

/-- The range of a batch holds that of each of its series. -/
theorem timeRange_holds {series : List Series} {s : Series} (member : s ∈ series) :
    (timeRange series).1 ≤ s.start ∧ s.stop ≤ (timeRange series).2 := by
  cases series with
  | nil => cases member
  | cons r rest =>
    obtain ⟨earliest, starts⟩ := foldl_min_le rest r.start
    obtain ⟨latest, stops⟩ := le_foldl_max rest r.stop
    rcases List.mem_cons.mp member with rfl | later
    · exact ⟨earliest, latest⟩
    · exact ⟨starts s later, stops s later⟩

theorem timeRange_map (change : Series → Series) (start : ∀ s, (change s).start = s.start)
    (stop : ∀ s, (change s).stop = s.stop) (series : List Series) :
    timeRange (series.map change) = timeRange series := by
  cases series with
  | nil => rfl
  | cons s rest => simp only [List.map_cons, timeRange, List.foldl_map, start, stop]

/-- The time from the start of the range of a batch to its end. -/
def duration (batch : Batch) (store : Store) : Int :=
  (timeRange (batch.series store)).2 - (timeRange (batch.series store)).1

section

variable [Runtime]

/-- A budget that is sound is planned for over the span of the batch, if it has one. -/
theorem consolidate_of_positive (writable : isWritable budget = true) (positive : 0 < budget)
    (batch : Batch) (store : Store) :
    batch.consolidate budget store =
      if batch.duration store ≤ 0 then (.ok (), store)
      else planAll (batch.duration store) budget (batch.present store) store := by
  have checked : Fault.requireOf budget (0 < budget) (.budgetNotPositive budget) = .ok () :=
    Fault.requireOf_eq_ok_iff.mpr ⟨writable, decide_eq_true positive⟩
  rw [consolidate, checked]
  rfl

theorem consolidate_of_excess {limit : Nat} (long : digitExcess? budget = some limit)
    (batch : Batch) (store : Store) :
    batch.consolidate budget store = (.error (.tooManyDigits limit), store) := by
  have checked : Fault.requireOf budget (0 < budget) (.budgetNotPositive budget) =
      .error (.tooManyDigits limit) :=
    Fault.requireOf_eq_error_iff.mpr (.inl ⟨limit, long, rfl⟩)
  rw [consolidate, checked]

theorem consolidate_of_few (writable : isWritable budget = true) (few : budget ≤ 0)
    (batch : Batch) (store : Store) :
    batch.consolidate budget store = (.error (.budgetNotPositive budget), store) := by
  have checked : Fault.requireOf budget (0 < budget) (.budgetNotPositive budget) =
      .error (.budgetNotPositive budget) :=
    Fault.requireOf_eq_error_iff.mpr (.inr ⟨writable, decide_eq_false (by omega), rfl⟩)
  rw [consolidate, checked]

/-- A batch is planned for a budget that can be written and is positive. -/
theorem consolidate_cases (budget : Int) (batch : Batch) (store : Store) :
    (∃ limit, digitExcess? budget = some limit ∧
      batch.consolidate budget store = (.error (.tooManyDigits limit), store)) ∨
    (budget ≤ 0 ∧ isWritable budget = true ∧
      batch.consolidate budget store = (.error (.budgetNotPositive budget), store)) ∨
    (isWritable budget = true ∧ 0 < budget ∧
      batch.consolidate budget store =
        if batch.duration store ≤ 0 then (.ok (), store)
        else planAll (batch.duration store) budget (batch.present store) store) := by
  cases long : digitExcess? budget with
  | some limit => exact .inl ⟨limit, rfl, consolidate_of_excess long batch store⟩
  | none =>
    have writable : isWritable budget = true := by rw [isWritable, long, Option.isNone_none]
    right
    by_cases positive : 0 < budget
    · exact .inr ⟨writable, positive, consolidate_of_positive writable positive batch store⟩
    · have few : budget ≤ 0 := Int.not_lt.mp positive
      exact .inl ⟨few, writable, consolidate_of_few writable few batch store⟩

end

/-- Planning a series again plans it alike, so it does not matter how often a batch names it. -/
theorem planAll_isPlanned [Runtime] {positions : List Nat}
    (done : planAll span budget positions store = (.ok (), after)) {i : Nat} {s : Series}
    (found : after[i]? = some s)
    (reached : i ∈ positions ∨ ∀ r, store[i]? = some r → r.IsPlanned span budget) :
    s.IsPlanned span budget := by
  induction positions generalizing store with
  | nil =>
    cases done
    rcases reached with none | planned
    · cases none
    · exact planned s found
  | cons j rest ih =>
    rw [planAll] at done
    cases present : store[j]? with
    | none =>
      rw [present] at done
      apply ih done
      rcases reached with member | planned
      · rcases List.mem_cons.mp member with rfl | later
        · right
          intro r here
          rw [present] at here
          cases here
        · exact .inl later
      · exact .inr planned
    | some r =>
      rw [present] at done
      simp only at done
      cases outcome : r.plan span budget with
      | error fault =>
        rw [outcome] at done
        cases done
      | ok next =>
        rw [outcome] at done
        apply ih done
        by_cases same : j = i
        · right
          intro q at_i
          rw [same] at at_i present
          rw [List.getElem?_set_self (List.getElem?_eq_some_iff.mp present).1] at at_i
          cases at_i
          exact Series.isPlanned_of_plan outcome
        · rw [List.getElem?_set_ne same]
          rcases reached with member | planned
          · rcases List.mem_cons.mp member with rfl | later
            · exact absurd rfl same
            · exact .inl later
          · exact .inr planned

end Batch

end Rollup
