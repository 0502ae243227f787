import Mathlib.Order.Bounds.Basic
import Rollup.Proofs.Batch.Repeat

/-!
The factors of a plan. Main statement: up to `2 ^ 53` points the factor of a series beyond the
budget is the exact ceiling of the quotient of its points and the budget, although the quotient is
rounded first, and planning fails exactly if a quotient is rounded beyond every sample.
-/

namespace Rollup

/-- The least quotient that is rounded beyond every sample. -/
def quotientLimit : Nat := 2 ^ 1024 - 2 ^ 970

section Quotient

variable {count budget k : Nat}

theorem ceilQuotient_isSome_iff (positive : 0 < budget) :
    (ceilQuotient count budget).isSome ↔ count < quotientLimit * budget := by
  have units : (2 ^ (53 + 1) - 1) * (budget * 2 ^ 2045) =
      quotientLimit * budget * (2 * Sample.one) := by
    have scaled : (2 ^ (53 + 1) - 1) * 2 ^ 2045 = quotientLimit * (2 * Sample.one) := by
      decide +kernel
    generalize 2 ^ 2045 = top at scaled ⊢
    generalize 2 * Sample.one = one at scaled ⊢
    rw [Nat.mul_left_comm, scaled]
    ring
  have limit : (Binary.nearest 53 (count * Sample.one) budget).exponent ≤ 2045 ↔
      count < quotientLimit * budget := by
    rw [Binary.exponent_nearest_le_iff (by decide) positive, units, Nat.mul_left_comm]
    exact Nat.mul_lt_mul_right (Nat.mul_pos (by decide) Sample.one_pos)
  rw [← limit, ceilQuotient, Sample.ofRatio]
  split
  · next fits => simp [Sample.ceil?, fits]
  · next beyond => simp [Sample.ceil?, beyond]

/-- Rounding does not go past a whole number of at most 53 digits. -/
theorem ceilQuotient_le {j : Nat} (positive : 0 < budget) (small : j ≤ 2 ^ 53)
    (enough : count ≤ j * budget) (rounded : ceilQuotient count budget = some k) : k ≤ j := by
  obtain ⟨b, form, value⟩ := Sample.exists_isNormal small
  have below : count * Sample.one ≤ b.significand * 2 ^ b.exponent * budget := by
    rw [value, Nat.mul_right_comm]
    exact Nat.mul_le_mul_right _ enough
  have least := Binary.nearest_le (by decide) positive form below
  rw [value] at least
  rw [ceilQuotient] at rounded
  cases quotient : Sample.ofRatio false (count * Sample.one) budget with
  | finite x =>
    rw [quotient] at rounded
    rw [← Sample.magnitude_of_ofRatio quotient] at least
    exact Sample.ceil_le rounded least
  | missing | infinite =>
    rw [quotient] at rounded
    cases rounded

theorem ceilQuotient_isLeast (positive : 0 < budget) (beyond : budget < count)
    (small : count ≤ 2 ^ 53) (rounded : ceilQuotient count budget = some k) :
    IsLeast {k : Nat | count ≤ k * budget} k := by
  constructor
  · exact le_ceilQuotient positive beyond (Nat.le_refl count) small rounded
  · intro j enough
    by_cases short : j ≤ 2 ^ 53
    · exact ceilQuotient_le positive short enough rounded
    · have most : count ≤ 2 ^ 53 * budget :=
        Nat.le_trans small (Nat.le_mul_of_pos_right _ positive)
      have bound := ceilQuotient_le positive (Nat.le_refl _) most rounded
      omega

/-- Up to `2 ^ 53` points the factor is the exact ceiling, and more than one sample is joined. -/
theorem isLeast_of_ceilQuotient {points most : Int} (positive : 0 < most) (beyond : most < points)
    (small : points ≤ 2 ^ 53) (rounded : ceilQuotient points.toNat most.toNat = some k) :
    2 ≤ k ∧ IsLeast {k : Nat | points ≤ k * most} k := by
  obtain ⟨count, rfl⟩ := Int.eq_ofNat_of_zero_le (by omega : 0 ≤ points)
  obtain ⟨budget, rfl⟩ := Int.eq_ofNat_of_zero_le (by omega : 0 ≤ most)
  have least : IsLeast {k : Nat | count ≤ k * budget} k :=
    ceilQuotient_isLeast (by omega) (by omega) (by omega) rounded
  constructor
  · by_contra single
    have enough : count ≤ k * budget := least.1
    have few : k * budget ≤ 1 * budget := Nat.mul_le_mul_right budget (by omega)
    omega
  · constructor
    · exact_mod_cast least.1
    · intro j enough
      apply least.2
      exact_mod_cast enough

end Quotient

namespace Series

variable [Runtime] {span budget : Int} {s : Series}

/-- Planning leaves a series within the budget, gives one beyond it a factor, and fails for one
whose quotient is too large. -/
theorem plan_cases (forward : 0 < s.step) (positive : 0 < budget) (span : Int) :
    (span / s.step ≤ budget ∧ s.plan span budget = .ok s) ∨
    (budget < span / s.step ∧ span / s.step < quotientLimit * budget ∧
      ∃ count : Nat, ceilQuotient (span / s.step).toNat budget.toNat = some count ∧
        s.plan span budget = .ok { s with grouping := count, view := none }) ∨
    (quotientLimit * budget ≤ span / s.step ∧ budget < span / s.step ∧
      s.plan span budget = .error .quotientTooLarge) := by
  have floor : span.fdiv s.step = span / s.step := Int.fdiv_eq_ediv_of_nonneg span (by omega)
  have some_step : s.step ≠ 0 := by omega
  simp only [plan, if_neg some_step, floor]
  by_cases within : span / s.step ≤ budget
  · exact .inl ⟨within, by rw [if_pos within]⟩
  · have finite : (ceilQuotient (span / s.step).toNat budget.toNat).isSome ↔
        span / s.step < quotientLimit * budget := by
      rw [ceilQuotient_isSome_iff (by omega), ← Int.ofNat_lt, Int.natCast_mul,
        Int.toNat_of_nonneg (by omega), Int.toNat_of_nonneg (by omega)]
    rw [if_neg within]
    right
    cases rounded : ceilQuotient (span / s.step).toNat budget.toNat with
    | none =>
      rw [rounded] at finite
      have beyond : ¬ span / s.step < quotientLimit * budget := by
        intro fits
        cases finite.mpr fits
      exact .inr ⟨Int.not_lt.mp beyond, by omega, rfl⟩
    | some count =>
      rw [rounded] at finite
      exact .inl ⟨by omega, finite.mp rfl, count, rfl, regroup_of_ceilQuotient rounded s⟩

/-- Why a series cannot be planned, if it cannot. -/
def planFault (span budget : Int) (s : Series) : Option Fault :=
  match s.plan span budget with
  | .ok _ => none
  | .error fault => some fault

/-- A fault of a plan is one of the step. -/
theorem planFault_of_step {r : Series} (same : r.step = s.step) :
    r.planFault span budget = s.planFault span budget := by
  simp only [planFault, plan, same]
  by_cases zero : s.step = 0
  · simp [zero]
  · by_cases within : span.fdiv s.step ≤ budget
    · simp [zero, within]
    · cases quotient : ceilQuotient (span.fdiv s.step).toNat budget.toNat with
      | none => simp [zero, within]
      | some count => simp [zero, within, regroup_of_ceilQuotient quotient]

theorem planFault_eq (forward : 0 < s.step) (positive : 0 < budget) :
    s.planFault span budget =
      if span / s.step < quotientLimit * budget then none else some .quotientTooLarge := by
  have room : 1 * budget < quotientLimit * budget :=
    Int.mul_lt_mul_of_pos_right (by decide +kernel) positive
  rcases plan_cases forward positive span with
    ⟨within, done⟩ | ⟨_, fits, count, _, done⟩ | ⟨beyond, _, failed⟩
  · rw [if_pos (by omega), planFault, done]
  · rw [if_pos fits, planFault, done]
  · rw [if_neg (by omega), planFault, failed]

end Series

namespace Batch

variable {store after : Store} {batch : Batch} {span budget : Int} {positions : List Nat}

/-- The time from the earliest start to the latest end of some series; none without any. -/
inductive IsSpan : List Series → Int → Prop
  | none : IsSpan [] 0
  | between {series : List Series} {first last : Series} : first ∈ series → last ∈ series →
      (∀ s ∈ series, first.start ≤ s.start ∧ s.stop ≤ last.stop) →
      IsSpan series (last.stop - first.start)

theorem IsSpan.unique {series : List Series} {other : Int} (left : IsSpan series span)
    (right : IsSpan series other) : span = other := by
  cases left with
  | none =>
    cases right with
    | none => rfl
    | between member _ _ => cases member
  | between first last bounds =>
    cases right with
    | none => cases first
    | between first' last' bounds' =>
      have starts := (bounds _ first').1
      have starts' := (bounds' _ first).1
      have stops := (bounds _ last').2
      have stops' := (bounds' _ last).2
      omega

/-- What is chosen from a value and those of some series is one of them. -/
theorem foldl_mem {choose : Int → Int → Int} (chooses : ∀ a b, choose a b = a ∨ choose a b = b)
    (value : Series → Int) (rest : List Series) (first : Int) :
    rest.foldl (fun best r => choose best (value r)) first = first ∨
      ∃ s ∈ rest, value s = rest.foldl (fun best r => choose best (value r)) first := by
  induction rest generalizing first with
  | nil => exact .inl rfl
  | cons r rest ih =>
    rw [List.foldl_cons]
    rcases ih (choose first (value r)) with same | ⟨s, member, same⟩
    · rw [same]
      rcases chooses first (value r) with first | second
      · exact .inl first
      · exact .inr ⟨r, by simp, second.symm⟩
    · exact .inr ⟨s, List.mem_cons_of_mem _ member, same⟩

/-- The range of some series starts with one of them and ends with one of them. -/
theorem timeRange_reached {series : List Series} (some_series : series ≠ []) :
    (∃ s ∈ series, s.start = (timeRange series).1) ∧
      ∃ s ∈ series, s.stop = (timeRange series).2 := by
  cases series with
  | nil => exact absurd rfl some_series
  | cons r rest =>
    constructor
    · rcases foldl_mem min_choice Series.start rest r.start with same | ⟨s, member, same⟩
      · exact ⟨r, by simp, same.symm⟩
      · exact ⟨s, List.mem_cons_of_mem _ member, same⟩
    · rcases foldl_mem max_choice Series.stop rest r.stop with same | ⟨s, member, same⟩
      · exact ⟨r, by simp, same.symm⟩
      · exact ⟨s, List.mem_cons_of_mem _ member, same⟩

theorem isSpan_timeRange (series : List Series) :
    IsSpan series ((timeRange series).2 - (timeRange series).1) := by
  cases series with
  | nil => exact .none
  | cons r rest =>
    have bounds (s : Series) (member : s ∈ r :: rest) := timeRange_holds member
    obtain ⟨⟨first, inside, start⟩, last, inside', stop⟩ :=
      timeRange_reached (List.cons_ne_nil r rest)
    rw [← start, ← stop] at bounds ⊢
    exact .between inside inside' bounds

section

variable [Runtime]

/-- A plan keeps the steps, and with them the faults. -/
theorem planFault_set {i : Nat} {s next : Series} (found : store[i]? = some s)
    (done : s.plan span budget = .ok next) (j : Nat) :
    (store.set i next)[j]?.bind (Series.planFault span budget) =
      store[j]?.bind (Series.planFault span budget) := by
  have kept : next.step = s.step := by rw [(Series.plan_steps done).frame]
  have untouched : List.Forall₂ (fun q r : Series => r.step = q.step) store store :=
    List.forall₂_same.mpr fun _ _ => rfl
  have same := Store.related_set untouched found kept
  cases later : (store.set i next)[j]? with
  | none => rw [Store.absent_before same later]
  | some r =>
    obtain ⟨q, before, step⟩ := Store.found_before same later
    rw [before, Option.bind_some, Option.bind_some, Series.planFault_of_step step]

/-- A batch cannot be planned for the reason that holds of the first of its series that cannot. -/
theorem planAll_fst (span budget : Int) (positions : List Nat) (store : Store) :
    (planAll span budget positions store).1 =
      match positions.findSome? fun i => store[i]?.bind (Series.planFault span budget) with
      | none => .ok ()
      | some fault => .error fault := by
  fun_induction planAll span budget positions store with
  | case1 store => rfl
  | case2 i rest store absent ih => simpa [absent] using ih
  | case3 i rest store s found fault failed => simp [found, Series.planFault, failed]
  | case4 i rest store s found next done ih =>
    simp only [planFault_set found done] at ih
    simp only [ih, List.findSome?_cons, found, Option.bind_some, Series.planFault, done]

/-- The positions that planning reaches: those before the first series that cannot be planned. -/
def reached (span budget : Int) (positions : List Nat) (store : Store) : List Nat :=
  positions.takeWhile fun i => (store[i]?.bind (Series.planFault span budget)).isNone

theorem planAll_snd (span budget : Int) (positions : List Nat) (store : Store) :
    (planAll span budget positions store).2 =
      store.walk (Series.planned span budget) (reached span budget positions store) := by
  fun_induction planAll span budget positions store with
  | case1 store => rfl
  | case2 i rest store absent ih =>
    rw [ih, reached, reached, List.takeWhile_cons_of_pos (by simp [absent]),
      Store.walk_cons_none absent]
  | case3 i rest store s found fault failed =>
    rw [reached, List.takeWhile_cons_of_neg (by simp [found, Series.planFault, failed])]
    rfl
  | case4 i rest store s found next done ih =>
    simp only [reached, planFault_set found done] at ih
    rw [ih, reached, List.takeWhile_cons_of_pos (by simp [found, Series.planFault, done]),
      Store.walk_cons_some found, Series.planned, done]

theorem planAll_of_stays
    (stays : ∀ i ∈ positions, ∀ s, store[i]? = some s → s.plan span budget = .ok s) :
    planAll span budget positions store = (.ok (), store) := by
  induction positions with
  | nil => rfl
  | cons i rest ih =>
    have others := ih fun j member => stays j (List.mem_cons_of_mem _ member)
    cases found : store[i]? with
    | none => simpa [planAll, found] using others
    | some s =>
      obtain ⟨inside, rfl⟩ := List.getElem?_eq_some_iff.mp found
      have same := stays i (by simp) _ found
      simp only [planAll, found, same, List.set_getElem_self]
      exact others

/-- Over no time at all nothing is beyond the budget. -/
theorem consolidate_eq (writable : isWritable budget = true) (positive : 0 < budget)
    (forward : ∀ s ∈ batch.series store, 0 < s.step) (spans : IsSpan (batch.series store) span) :
    batch.consolidate budget store = planAll span budget (batch.present store) store := by
  rw [spans.unique (isSpan_timeRange _), consolidate_of_positive writable positive, duration]
  split
  · next none =>
    symm
    apply planAll_of_stays
    intro i member s found
    have step := forward s (mem_series.mpr ⟨i, member, found⟩)
    have least := Int.ediv_le_ediv step none
    rw [Int.zero_ediv] at least
    rcases Series.plan_cases step positive
        ((timeRange (batch.series store)).2 - (timeRange (batch.series store)).1) with
      ⟨_, done⟩ | ⟨beyond, _⟩ | ⟨_, beyond, _⟩
    · exact done
    · omega
    · omega
  · rfl

theorem consolidate_fst (writable : isWritable budget = true) (positive : 0 < budget)
    (forward : ∀ s ∈ batch.series store, 0 < s.step) (spans : IsSpan (batch.series store) span) :
    (batch.consolidate budget store).1 =
      if ∀ s ∈ batch.series store, span / s.step < quotientLimit * budget then .ok ()
      else .error .quotientTooLarge := by
  rw [consolidate_eq writable positive forward spans, planAll_fst]
  split
  · next none =>
    rw [if_pos]
    intro s member
    obtain ⟨i, inside, found⟩ := mem_series.mp member
    have planned := List.findSome?_eq_none_iff.mp none i inside
    rw [found, Option.bind_some, Series.planFault_eq (forward s member) positive] at planned
    by_contra beyond
    rw [if_neg beyond] at planned
    cases planned
  · next fault some =>
    obtain ⟨i, inside, failed⟩ := List.exists_of_findSome?_eq_some some
    obtain ⟨s, found, failed⟩ := Option.bind_eq_some_iff.mp failed
    have member : s ∈ batch.series store := mem_series.mpr ⟨i, inside, found⟩
    rw [Series.planFault_eq (forward s member) positive] at failed
    split at failed
    · cases failed
    · next beyond =>
      cases failed
      rw [if_neg]
      intro fits
      exact beyond (fits s member)

/-- Planning a batch with steps forward answers exactly if the budget can be written and no quotient
of its points and the budget is too large. It gives each series with more points than the budget,
over the span of the batch, a factor, which for up to `2 ^ 53` points is the least that keeps the
budget, and leaves all others. -/
theorem factors_of_consolidate (positive : 0 < budget)
    (forward : ∀ s ∈ batch.series store, 0 < s.step) (spans : IsSpan (batch.series store) span) :
    (∀ limit, digitExcess? budget = some limit →
      batch.consolidate budget store = (.error (.tooManyDigits limit), store)) ∧
    (isWritable budget = true →
      (batch.consolidate budget store).1 =
        if ∀ s ∈ batch.series store, span / s.step < quotientLimit * budget then .ok ()
        else .error .quotientTooLarge) ∧
    ∀ after, batch.consolidate budget store = (.ok (), after) → after.length = store.length ∧
      ∀ (i : Nat) s, store[i]? = some s →
        (i ∈ batch.present store → budget < span / s.step →
          ∃ count : Nat, after[i]? = some { s with grouping := count, view := none } ∧
            (span / s.step ≤ 2 ^ 53 →
              2 ≤ count ∧ IsLeast {k : Nat | span / s.step ≤ k * budget} count)) ∧
        (i ∉ batch.present store ∨ span / s.step ≤ budget → after[i]? = some s) := by
  refine ⟨fun _ long => consolidate_of_excess long batch store,
    fun writable => consolidate_fst writable positive forward spans, ?_⟩
  intro after done
  have writable : isWritable budget = true := by
    cases long : digitExcess? budget with
    | none => rw [isWritable, long]; rfl
    | some limit =>
      rw [consolidate_of_excess long] at done
      cases done
  have outcome := consolidate_fst writable positive forward spans
  have fits : ∀ s ∈ batch.series store, span / s.step < quotientLimit * budget := by
    by_contra beyond
    rw [done, if_neg beyond] at outcome
    cases outcome
  rw [consolidate_eq writable positive forward spans] at done
  obtain ⟨visited, _, walked, whole⟩ := Store.planAll_walk span budget (batch.present store) store
  rw [done] at walked whole
  rw [whole rfl] at walked
  simp only at walked
  subst walked
  refine ⟨Store.length_walk _ _ _, ?_⟩
  intro i s found
  have inside (member : i ∈ batch.present store) :
      (store.walk (Series.planned span budget) (batch.present store))[i]? =
        some (s.planned span budget) := by
    rw [Store.getElem?_walk_of_mem (Series.isPlanning_planned span budget).again member, found,
      Option.map_some]
  by_cases member : i ∈ batch.present store
  · have among : s ∈ batch.series store := mem_series.mpr ⟨i, member, found⟩
    rw [inside member]
    rcases Series.plan_cases (forward s among) positive span with
      ⟨within, stays⟩ | ⟨beyond, _, count, rounded, regrouped⟩ | ⟨large, _⟩
    · refine ⟨fun _ beyond => by omega, fun _ => ?_⟩
      rw [Series.planned, stays]
    · refine ⟨fun _ _ => ⟨count, ?_, fun small => ?_⟩, fun left => ?_⟩
      · rw [Series.planned, regrouped]
      · exact isLeast_of_ceilQuotient positive beyond small rounded
      · rcases left with outside | within
        · exact absurd member outside
        · omega
    · have below := fits s among
      omega
  · refine ⟨fun among => absurd among member, fun _ => ?_⟩
    rw [Store.getElem?_walk_of_not_mem member, found]

end

/-- As many points as are planned exactly, beside a series within the budget that has its view. -/
theorem factors_of_consolidate_full :
    ∃ (store after : Store) (batch : Batch),
      store = Store.run [] [.makeTagged "a" [] 1 0 [],
        .makeTagged "b" [.ofNat 1] (2 ^ 52) (2 ^ 52) [], .aggregated 1] ∧
      batch = [some 0, none, some 1, some 0] ∧ (∀ s ∈ batch.series store, 0 < s.step) ∧
      IsSpan (batch.series store) (2 ^ 53) ∧ batch.consolidate 3 store = (.ok (), after) ∧
      after[0]?.map (·.grouping) = some 3002399751580331 ∧ after[1]? = store[1]? := by
  let store : Store := Store.run [] [.makeTagged "a" [] 1 0 [],
    .makeTagged "b" [.ofNat 1] (2 ^ 52) (2 ^ 52) [], .aggregated 1]
  let batch : Batch := [some 0, none, some 1, some 0]
  have forward : ∀ s ∈ batch.series store, 0 < s.step := by decide +kernel
  have spans : IsSpan (batch.series store) (2 ^ 53) := by
    have range : (timeRange (batch.series store)).2 - (timeRange (batch.series store)).1 =
        2 ^ 53 := by
      decide +kernel
    rw [← range]
    exact isSpan_timeRange _
  obtain ⟨_, outcome, changes⟩ := factors_of_consolidate (by decide : (0 : Int) < 3) forward spans
  have outcome := outcome (isWritable_of_lt (by decide +kernel))
  rw [if_pos (by decide +kernel)] at outcome
  rcases planned : batch.consolidate 3 store with ⟨_, after⟩
  rw [planned] at outcome
  simp only at outcome
  subst outcome
  obtain ⟨_, each⟩ := changes after planned
  have first : store[0]?.map (·.step) = some 1 := by decide +kernel
  have second : store[1]?.map (·.step) = some (2 ^ 52) := by decide +kernel
  obtain ⟨a, first, fine⟩ := Option.map_eq_some_iff.mp first
  obtain ⟨b, second, coarse⟩ := Option.map_eq_some_iff.mp second
  obtain ⟨count, found, exact_factor⟩ :=
    (each 0 a first).1 (by decide +kernel) (by rw [fine]; decide)
  obtain ⟨_, enough, least⟩ := exact_factor (by rw [fine]; decide)
  rw [fine] at enough least
  have lower : (2 ^ 53 / 1 : Int) ≤ count * 3 := enough
  have upper : count ≤ 3002399751580331 :=
    least (by decide : (2 ^ 53 / 1 : Int) ≤ (3002399751580331 : Nat) * 3)
  have factor : (count : Int) = 3002399751580331 := by omega
  have kept := (each 1 b second).2 (.inr (by rw [coarse]; decide))
  refine ⟨store, after, batch, rfl, rfl, forward, spans, planned, ?_, kept.trans second.symm⟩
  rw [found, Option.map_some, factor]

/-- Beyond `2 ^ 53` points the rounded quotient can lie below a whole number that the exact one
exceeds, so that a series beyond the budget is not grouped at all, and a quotient can be too large
to be rounded. -/
theorem factors_inexact :
    ∃ (store long : Store) (batch : Batch),
      store = Store.run [] [.makeTagged "a" [] 1 0 [], .makeTagged "b" [] 1 (2 ^ 53 + 1) []] ∧
      long = Store.run [] [.makeTagged "a" [] 1 0 [], .makeTagged "b" [] 1 (2 ^ 1024) []] ∧
      batch = [some 0, some 1] ∧ (∀ s ∈ batch.series store, s.step = 1) ∧
      IsSpan (batch.series store) (2 ^ 53 + 1) ∧
      (batch.consolidate (2 ^ 53) store).1 = .ok () ∧
      (batch.consolidate (2 ^ 53) store).2.map (·.grouping) = [1, 1] ∧
      ¬ IsLeast {k : Nat | (2 ^ 53 + 1 : Int) ≤ k * 2 ^ 53} 1 ∧
      (∀ s ∈ batch.series long, s.step = 1) ∧
      (batch.consolidate 1 long).1 = .error .quotientTooLarge := by
  let store : Store :=
    Store.run [] [.makeTagged "a" [] 1 0 [], .makeTagged "b" [] 1 (2 ^ 53 + 1) []]
  refine ⟨store, _, _, rfl, rfl, rfl, by decide +kernel, ?_, by decide +kernel, by decide +kernel,
    ?_, by decide +kernel, by decide +kernel⟩
  · have range : (timeRange (series store [some 0, some 1])).2 -
        (timeRange (series store [some 0, some 1])).1 = 2 ^ 53 + 1 := by
      decide +kernel
    rw [← range]
    exact isSpan_timeRange _
  · intro least
    have enough : (2 ^ 53 + 1 : Int) ≤ (1 : Nat) * 2 ^ 53 := least.1
    omega

end Batch

end Rollup
