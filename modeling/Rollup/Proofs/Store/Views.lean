import Mathlib.Data.List.TakeWhile
import Rollup.Proofs.Batch.Arrangement
import Rollup.Proofs.Store.Frame

/-!
What operations do to kept views. Main statement: an operation leaves the view of a series, or gives
the series a new factor, or reads the view and works it out, where there is none or where it is to
be recomputed.
-/

namespace Rollup

namespace Series

variable {s : Series} {span budget : Int}

theorem planned_of_beyond [Runtime] (sound : s.planFault span budget = none)
    (beyond : budget < span.fdiv s.step) : (s.planned span budget).view = none := by
  have exceeds : ¬ span.fdiv s.step ≤ budget := Int.not_le.mpr beyond
  by_cases zero : s.step = 0
  · simp [planFault, plan, zero] at sound
  · cases quotient : ceilQuotient (span.fdiv s.step).toNat budget.toNat with
    | none => simp [planFault, plan, zero, exceeds, quotient] at sound
    | some count => simp [planned, plan, zero, exceeds, quotient, regroup_of_ceilQuotient quotient]

/-- A recomputation that fails leaves the view. -/
theorem aggregate_view (s : Series) : s.aggregate.1.isOk ∨ s.aggregate.2.view = s.view := by
  rcases s.aggregate_cases with ⟨_, outcome⟩ | ⟨_, _, _, outcome⟩ | ⟨_, _, _, reduced⟩
  · rw [outcome]
    exact .inl rfl
  · rw [outcome, resolve_frame]
    exact .inr rfl
  · rcases reduced with ⟨_, _, outcome⟩ | ⟨_, _, outcome⟩
    · rw [outcome, resolve_frame]
      exact .inr rfl
    · rw [outcome]
      exact .inl rfl

theorem aggregated_of_kept {view : List Sample} (kept : s.view = some view) :
    s.aggregated = (.ok view, s) := by
  simp [aggregated, kept]

end Series

namespace Batch

variable [Runtime] {batch : Batch} {store : Store} {budget : Int} {i : Nat}

/-- Planning gives the series at a position a new factor: the budget is sound, the batch spans some
time, no series up to this one ends the plan, and over that time it has more points than the
budget. -/
def Regroups (budget : Int) (batch : Batch) (store : Store) (i : Nat) : Prop :=
  isWritable budget = true ∧ 0 < budget ∧ 0 < batch.duration store ∧
    i ∈ reached (batch.duration store) budget (batch.present store) store ∧
    store[i]?.any fun s => budget < (batch.duration store).fdiv s.step

instance : Decidable (batch.Regroups budget store i) :=
  inferInstanceAs (Decidable (_ ∧ _ ∧ _ ∧ _ ∧ _))

theorem getElem?_of_not_regroups (stays : ¬ batch.Regroups budget store i) :
    (batch.consolidate budget store).2[i]? = store[i]? := by
  rcases consolidate_cases budget batch store with
    ⟨_, _, outcome⟩ | ⟨_, _, outcome⟩ | ⟨writable, positive, outcome⟩
  · rw [outcome]
  · rw [outcome]
  · rw [outcome]
    split
    · rfl
    · next spans =>
      rw [planAll_snd]
      by_cases member : i ∈ reached (batch.duration store) budget (batch.present store) store
      · rw [Store.getElem?_walk_of_mem (Series.isPlanning_planned _ _).again member]
        cases found : store[i]? with
        | none => rfl
        | some s =>
          have within : (batch.duration store).fdiv s.step ≤ budget := by
            by_contra beyond
            exact stays ⟨writable, positive, by omega, member, by simpa [found] using beyond⟩
          rw [Option.map_some, Series.planned_of_within within]
      · exact Store.getElem?_walk_of_not_mem member

theorem view_of_regroups (regroups : batch.Regroups budget store i) :
    (batch.consolidate budget store).2[i]?.bind Series.view = none := by
  obtain ⟨writable, positive, spans, member, beyond⟩ := regroups
  have planned := List.mem_takeWhile_imp member
  rw [consolidate_of_positive writable positive, if_neg (by omega), planAll_snd,
    Store.getElem?_walk_of_mem (Series.isPlanning_planned _ _).again member]
  cases found : store[i]? with
  | none => rfl
  | some s =>
    simp only [found, Option.bind_some, Option.isNone_iff_eq_none] at planned
    simp only [found, Option.any_some, decide_eq_true_eq] at beyond
    exact Series.planned_of_beyond planned beyond

end Batch

namespace Operation

/-- Reads the view of the series at a position, which works it out if there is none. -/
def Reads (i : Nat) : Operation → Prop
  | .aggregate j | .aggregated j | .aggregatedTimestamps j => j = i
  | .json batch => some i ∈ batch
  | .encode batch name _ _ => Format.ofName? name = some .json ∧ some i ∈ batch
  | _ => False

theorem Reads.isCall {i : Nat} {operation : Operation} (reads : operation.Reads i) :
    operation.IsCall := by
  cases operation with
  | edit j change => exact reads
  | insert s => exact reads.elim
  | _ => trivial

variable [Runtime]

/-- Gives the series at a position a new grouping factor, directly or by a plan. -/
def Regroups (i : Nat) (store : Store) : Operation → Prop
  | .regroup j count => j = i ∧ isWritable count = true ∧ 0 ≤ count
  | .consolidate batch budget => batch.Regroups budget store i
  | .encode batch name budget _ =>
    (Format.ofName? name).isSome ∧ budget.any fun points => batch.Regroups points store i
  | _ => False

/-- Works the view of the series at a position out anew, although there may be one, and succeeds. -/
def Recomputes (i : Nat) (store : Store) : Operation → Prop
  | .aggregate j => j = i ∧ store[i]?.any fun s => s.aggregate.1.isOk
  | _ => False

instance decidableRegroups (i : Nat) (store : Store) :
    (operation : Operation) → Decidable (operation.Regroups i store)
  | .regroup _ _ => inferInstanceAs (Decidable (_ ∧ _ ∧ _))
  | .consolidate batch budget => inferInstanceAs (Decidable (batch.Regroups budget store i))
  | .encode _ _ _ _ => inferInstanceAs (Decidable (_ ∧ _))
  | .make .. | .makeTagged .. | .insert _ | .edit .. | .resolve .. | .aggregate _ | .aggregated _
  | .aggregatedStep _ | .timestamps _ | .aggregatedTimestamps _ | .check .. | .resolveBatch ..
  | .csv .. | .json _ | .pickle .. | .protobuf _ | .raw _ => .isFalse id

instance decidableRecomputes (i : Nat) (store : Store) :
    (operation : Operation) → Decidable (operation.Recomputes i store)
  | .aggregate _ => inferInstanceAs (Decidable (_ ∧ _))
  | .make .. | .makeTagged .. | .insert _ | .edit .. | .regroup .. | .resolve .. | .aggregated _
  | .aggregatedStep _ | .timestamps _ | .aggregatedTimestamps _ | .check .. | .consolidate ..
  | .resolveBatch .. | .csv .. | .json _ | .pickle .. | .protobuf _ | .raw _ | .encode .. =>
    .isFalse id

end Operation

namespace Store

variable {store before after : Store} {i : Nat} {s : Series}

/-- The view that the series at a position keeps. -/
def viewAt (store : Store) (i : Nat) : Option (List Sample) := store[i]?.bind Series.view

theorem viewAt_of_found (found : store[i]? = some s) : store.viewAt i = s.view := by
  rw [viewAt, found, Option.bind_some]

theorem viewAt_congr (same : after[i]? = before[i]?) : after.viewAt i = before.viewAt i := by
  rw [viewAt, viewAt, same]

/-- What holds between the views of the series holds between those at a position. -/
theorem related_viewAt (related : Option (List Sample) → Option (List Sample) → Prop)
    (pairs : List.Forall₂ (fun s next : Series => related s.view next.view) before after)
    (neither : related none none) (i : Nat) : related (before.viewAt i) (after.viewAt i) := by
  cases later : after[i]? with
  | none =>
    rw [viewAt, viewAt, later, absent_before pairs later]
    exact neither
  | some next =>
    obtain ⟨s, earlier, pair⟩ := found_before pairs later
    rw [viewAt_of_found earlier, viewAt_of_found later]
    exact pair

theorem viewAt_resolve (registry : Registry) (batch : Batch) (store : Store) (i : Nat) :
    (batch.resolve registry store).2.viewAt i = store.viewAt i := by
  have same (s : Series) : (s.resolvedBy registry).view = s.view := by
    rw [Series.resolvedBy]
    split
    · rfl
    · rw [Series.resolve_frame]
  have untouched : List.Forall₂ (fun s next : Series => next.view = s.view) store store :=
    List.forall₂_same.mpr fun _ _ => rfl
  rw [Batch.resolve, resolveAll_walk]
  refine related_viewAt (fun a b => b = a) ?_ rfl i
  exact related_walk untouched (fun _ next before => (same next).trans before) _

/-- Reading a view keeps the one that there is. -/
theorem viewAt_json (batch : Batch) (store : Store) (i : Nat) :
    (Json.encode batch store).2.viewAt i = store.viewAt i ∨
      (some i ∈ batch ∧ store.viewAt i = none) := by
  have reads (s : Series) (view : List Sample) (kept : s.view = some view) :
      (Json.entry s).2.view = some view := by
    simp [Json.entry_snd, Series.aggregated, kept]
  by_cases member : some i ∈ batch
  · obtain ⟨visited, _, walked, _⟩ := contents_walk (batch.present store) store
    have keeps : ∀ view, store.viewAt i = some view →
        (Json.contents (batch.present store) store).2.viewAt i = some view := by
      rw [walked]
      refine related_viewAt (fun a b => ∀ view, a = some view → b = some view) ?_ (by simp) i
      apply related_walk (List.forall₂_same.mpr fun _ _ _ kept => kept)
      intro s next before view kept
      exact reads next view (before view kept)
    cases kept : store.viewAt i with
    | none => exact .inr ⟨member, rfl⟩
    | some view => exact .inl (keeps view kept)
  · exact .inl (viewAt_congr (Batch.getElem?_json (by simpa using member)))

theorem viewAt_onSeries (found : store[i]? = some s) (j : Nat)
    (act : Series → Except Fault Answer × Series) :
    (store.onSeries j act).2.viewAt i = if j = i then (act s).2.view else s.view := by
  split
  · next same =>
    subst same
    have inside := (List.getElem?_eq_some_iff.mp found).1
    simp only [onSeries, found]
    exact viewAt_of_found (List.getElem?_set_self inside)
  · next other => exact viewAt_of_found ((getElem?_onSeries (Ne.symm other) act).trans found)

theorem viewAt_onSeries_of_same (found : store[i]? = some s) (j : Nat)
    {act : Series → Except Fault Answer × Series} (same : (act s).2.view = s.view) :
    (store.onSeries j act).2.viewAt i = store.viewAt i := by
  rw [viewAt_onSeries found, same, ite_self, viewAt_of_found found]

theorem viewAt_onSeries_of_reading (found : store[i]? = some s) (j : Nat)
    {act : Series → Except Fault Answer × Series} (reads : (act s).2 = s.aggregated.2) :
    (store.onSeries j act).2.viewAt i = store.viewAt i ∨ (j = i ∧ store.viewAt i = none) := by
  rw [viewAt_onSeries found, reads, viewAt_of_found found]
  cases kept : s.view with
  | some view =>
    left
    rw [Series.aggregated_of_kept kept, kept, ite_self]
  | none =>
    split
    · next given => exact .inr ⟨given, rfl⟩
    · exact .inl rfl

variable [Runtime]

theorem viewAt_write (format : Format) (config : Config) (batch : Batch) (store : Store)
    (i : Nat) :
    (format.write config batch store).2.viewAt i = store.viewAt i ∨
      (format = .json ∧ some i ∈ batch ∧ store.viewAt i = none) := by
  cases format with
  | json =>
    rcases viewAt_json batch store i with same | ⟨member, absent⟩
    · exact .inl same
    · exact .inr ⟨rfl, member, absent⟩
  | csv | pickle | protobuf | raw => exact .inl rfl

theorem viewAt_consolidate (budget : Int) (batch : Batch) (store : Store) (i : Nat) :
    (batch.consolidate budget store).2.viewAt i =
      if batch.Regroups budget store i then none else store.viewAt i := by
  split
  · next regroups => exact Batch.view_of_regroups regroups
  · next stays => exact viewAt_congr (Batch.getElem?_of_not_regroups stays)

theorem viewAt_prepare (budget : Option Int) (batch : Batch) (store : Store) (i : Nat) :
    (batch.prepare budget store).2.viewAt i =
      if budget.any fun points => batch.Regroups points store i then none
      else store.viewAt i := by
  cases budget with
  | none => rfl
  | some points => simpa [Batch.prepare] using viewAt_consolidate points batch store i

/-- What becomes of the view of the series at a position: an operation leaves it, or gives the
series a new factor, or works the view out where there is none or where it is to be recomputed. -/
inductive OnView (i : Nat) (operation : Operation) (before after : Store) : Prop
  | leaves : ¬ operation.Regroups i before → after.viewAt i = before.viewAt i →
      OnView i operation before after
  | regroups : operation.Regroups i before → operation.Reads i ∨ after.viewAt i = none →
      OnView i operation before after
  | computes : ¬ operation.Regroups i before → operation.Reads i →
      before.viewAt i = none ∨ operation.Recomputes i before → OnView i operation before after

/-- A reading works the view out only where there is none. -/
theorem onView_of_reading {operation : Operation} (stays : ¬ operation.Regroups i before)
    (read : after.viewAt i = before.viewAt i ∨ (operation.Reads i ∧ before.viewAt i = none)) :
    OnView i operation before after := by
  rcases read with same | ⟨reads, absent⟩
  · exact .leaves stays same
  · exact .computes stays reads (.inl absent)

theorem onView_encode (batch : Batch) (name : Text) (budget : Option Int) (config : Config)
    (store : Store) (i : Nat) :
    OnView i (.encode batch name budget config) store
      (store.perform (.encode batch name budget config)).2 := by
  have planned := viewAt_prepare budget batch store i
  cases named : Format.ofName? name with
  | none =>
    have unnamed : (store.perform (.encode batch name budget config)).2 = store := by
      simp [perform, Batch.encode, named]
    rw [unnamed]
    exact .leaves (by simp [Operation.Regroups, named]) rfl
  | some format =>
    have onward : (store.perform (.encode batch name budget config)).2.viewAt i =
          (batch.prepare budget store).2.viewAt i ∨
        (Operation.Reads i (.encode batch name budget config) ∧
          (batch.prepare budget store).2.viewAt i = none) := by
      simp only [perform, Batch.encode_eq named]
      rcases batch.prepare budget store with ⟨fault | ⟨⟩, next⟩
      · exact .inl rfl
      · have resolved := viewAt_resolve .standard batch next i
        rcases viewAt_write format config batch (batch.resolve .standard next).2 i with
          same | ⟨json, member, absent⟩
        · exact .inl (same.trans resolved)
        · exact .inr ⟨⟨by rw [named, json], member⟩, resolved.symm.trans absent⟩
    by_cases regroups : Operation.Regroups i store (.encode batch name budget config)
    · rw [if_pos regroups.2] at planned
      rcases onward with same | ⟨reads, _⟩
      · exact .regroups regroups (.inr (same.trans planned))
      · exact .regroups regroups (.inl reads)
    · rw [if_neg fun given => regroups ⟨by rw [named]; rfl, given⟩] at planned
      rw [planned] at onward
      exact onView_of_reading regroups onward

theorem onView_perform (found : store[i]? = some s) (operation : Operation) :
    OnView i operation store (store.perform operation).2 := by
  have inside := (List.getElem?_eq_some_iff.mp found).1
  cases operation with
  | make _ _ _ _ _ | makeTagged _ _ _ _ _ | insert _ =>
    exact .leaves id (viewAt_congr (getElem?_add inside _))
  | edit j change => exact .leaves id (viewAt_onSeries_of_same found j (s.edit_view change))
  | regroup j count =>
    by_cases regroups : j = i ∧ isWritable count = true ∧ 0 ≤ count
    · refine .regroups regroups (.inr ?_)
      have done : s.regroup count = .ok { s with grouping := count, view := none } :=
        Series.regroup_eq_ok_iff.mpr ⟨regroups.2.1, regroups.2.2, rfl⟩
      rw [perform, viewAt_onSeries found, if_pos regroups.1, done]
    · refine .leaves regroups ?_
      rw [perform, viewAt_onSeries found, viewAt_of_found found, ite_eq_right_iff]
      intro same
      cases outcome : s.regroup count with
      | error fault => rfl
      | ok next =>
        obtain ⟨writable, allowed, _⟩ := Series.regroup_eq_ok_iff.mp outcome
        exact absurd ⟨same, writable, allowed⟩ regroups
  | resolve j registry =>
    refine .leaves id (viewAt_onSeries_of_same found j ?_)
    rw [Series.resolve_frame]
  | aggregate j =>
    rcases s.aggregate_view with done | same
    · by_cases given : j = i
      · exact .computes id given (.inr ⟨given, by rwa [found, Option.any_some]⟩)
      · refine .leaves id ?_
        rw [perform, viewAt_onSeries found, if_neg given, viewAt_of_found found]
    · exact .leaves id (viewAt_onSeries_of_same found j same)
  | aggregated j => exact onView_of_reading id (viewAt_onSeries_of_reading found j rfl)
  | aggregatedTimestamps j =>
    exact onView_of_reading id
      (viewAt_onSeries_of_reading found j s.aggregatedTimestamps_snd)
  | aggregatedStep j | timestamps j | check j bounds =>
    exact .leaves id (viewAt_onSeries_of_same found j rfl)
  | consolidate batch budget =>
    have planned := viewAt_consolidate budget batch store i
    by_cases regroups : batch.Regroups budget store i
    · rw [if_pos regroups] at planned
      exact .regroups regroups (.inr planned)
    · rw [if_neg regroups] at planned
      exact .leaves regroups planned
  | resolveBatch batch registry => exact .leaves id (viewAt_resolve registry batch store i)
  | json batch => exact onView_of_reading id (viewAt_json batch store i)
  | csv | pickle | protobuf | raw => exact .leaves id rfl
  | encode batch name budget config => exact onView_encode batch name budget config store i

/-- A kept view stays unless the operation regroups or recomputes the series. -/
theorem viewAt_of_kept {view : List Sample} {operation : Operation}
    (kept : store.viewAt i = some view)
    (stays : ¬ operation.Regroups i store ∧ ¬ operation.Recomputes i store) :
    (store.perform operation).2.viewAt i = some view := by
  obtain ⟨s, found, _⟩ := Option.bind_eq_some_iff.mp kept
  cases onView_perform found operation with
  | leaves _ same => exact same.trans kept
  | regroups regroups _ => exact absurd regroups stays.1
  | computes _ _ computes =>
    rcases computes with absent | recomputes
    · rw [kept] at absent
      cases absent
    · exact absurd recomputes stays.2

/-- A view that there is not, or that a new factor ends, does not come unless the operation reads
it. -/
theorem viewAt_of_unread (found : store[i]? = some s) {operation : Operation}
    (absent : store.viewAt i = none ∨ operation.Regroups i store) (unread : ¬ operation.Reads i) :
    (store.perform operation).2.viewAt i = none := by
  cases onView_perform found operation with
  | leaves stays same => exact same.trans (absent.resolve_right stays)
  | regroups _ ends => exact ends.resolve_left unread
  | computes _ reads _ => exact absurd reads unread

end Store

end Rollup
