import Rollup.Proofs.Batch.Reports
import Rollup.Proofs.Format.Samples

/-!
Requests can be made again. Main statement: a request that was answered, made again from the state
it has left, gives the same answer and leaves the same state, whatever state it was first made from.
The second one plans and binds anew what the first one did, and finds its views kept or drops them
and computes them again from the same reducers.
-/

namespace Rollup

namespace Series

/-- A change that goes by the step alone: it leaves all series with a step as they are, or gives
all of them the same factor. -/
def IsPlanning (change : Series → Series) : Prop :=
  ∀ step, (∀ s, s.step = step → change s = s) ∨
    ∃ count, ∀ s, s.step = step → change s = { s with grouping := count, view := none }

theorem isPlanning_id : IsPlanning id := fun _ => .inl fun _ _ => rfl

theorem isPlanning_planned [Runtime] (span budget : Int) : IsPlanning (planned span budget) := by
  intro step
  by_cases zero : step = 0
  · left
    rintro s rfl
    simp [planned, plan, zero]
  · by_cases within : span.fdiv step ≤ budget
    · left
      rintro s rfl
      exact planned_of_within within
    · cases quotient : ceilQuotient (span.fdiv step).toNat budget.toNat with
      | none =>
        left
        rintro s rfl
        simp [planned, plan, zero, within, quotient]
      | some count =>
        right
        refine ⟨count, ?_⟩
        rintro s rfl
        simp [planned, plan, zero, within, quotient, regroup_of_ceilQuotient quotient]

theorem IsPlanning.again {change : Series → Series} (planning : IsPlanning change) (s : Series) :
    change (change s) = change s := by
  rcases planning s.step with leaves | ⟨count, regroups⟩
  · rw [leaves s rfl, leaves s rfl]
  · rw [regroups s rfl]
    exact regroups _ rfl

/-- Whether a series can be planned depends on its step alone. -/
theorem plan_of_step [Runtime] {span budget : Int} {s next after : Series}
    (same : next.step = s.step) (done : s.plan span budget = .ok after) :
    next.plan span budget = .ok (next.planned span budget) := by
  simp only [planned]
  simp only [plan, same] at done ⊢
  split at done
  · cases done
  · next nonzero =>
    simp only [nonzero, if_false]
    split at done
    · next within => simp [within]
    · next beyond =>
      simp only [beyond, if_false]
      split at done
      · cases done
      · next quotient => simp [regroup_of_ceilQuotient quotient]

/-- Reading a series whose reducer is settled changes only its view. -/
theorem aggregated_of_resolved {s : Series} (settled : s.resolved = s) :
    ∃ view, s.aggregated.2 = { s with view } := by
  have stays (grouped : 1 < s.grouping) : (s.resolve .standard).2 = s := by
    rwa [resolved, if_neg (by omega)] at settled
  cases kept : s.view with
  | some view =>
    refine ⟨some view, ?_⟩
    simp only [aggregated, kept]
    rw [← kept]
  | none =>
    simp only [aggregated, kept]
    rcases s.aggregate_cases with
      ⟨_, outcome⟩ | ⟨grouped, _, _, outcome⟩ | ⟨grouped, _, _, reduced⟩
    · exact ⟨_, by rw [outcome]⟩
    · exact ⟨s.view, by rw [outcome, stays grouped]⟩
    · rcases reduced with ⟨_, _, outcome⟩ | ⟨_, _, outcome⟩
      · exact ⟨s.view, by rw [outcome, stays grouped]⟩
      · exact ⟨_, by rw [outcome, stays grouped]⟩

/-- A series that was planned and resolved, and has had at most its view changed since, is planned
and resolved again. If its factor is set anew its view is dropped, as it was the first time. -/
theorem IsPlanning.resolved_again {change : Series → Series} (planning : IsPlanning change)
    {s after : Series} (read : ∃ view, after = { (change s).resolved with view }) :
    (change after).report = (change s).report ∧
      ((change after).resolved = (change s).resolved ∨ (change after).resolved = after) := by
  obtain ⟨view, rfl⟩ := read
  rcases planning s.step with leaves | ⟨count, regroups⟩
  · have step : ({ s.resolved with view } : Series).step = s.step := by rw [resolved_frame]
    rw [leaves s rfl, leaves _ step]
    constructor
    · rw [report_view, report_resolved]
    · right
      rw [resolved_view, Series.resolved_again]
  · have first : change s = { s with grouping := count, view := none } := regroups s rfl
    have step : ({ (change s).resolved with view } : Series).step = s.step := by
      rw [resolved_frame, first]
    have second : change { (change s).resolved with view } = (change s).resolved := by
      rw [regroups _ step, resolved_frame, first]
    rw [second]
    constructor
    · rw [report_resolved]
    · left
      rw [Series.resolved_again]

end Series

namespace Batch

variable {store later : Store} {batch : Batch}

/-- Series that differ only in what was worked out are planned alike. -/
theorem planAll_of_bare [Runtime] {span budget : Int} {positions : List Nat} {now next : Store}
    (same : List.Forall₂ (fun s r : Series => r.bare = s.bare) now later)
    (done : planAll span budget positions now = (.ok (), next)) :
    planAll span budget positions later =
      (.ok (), later.walk (Series.planned span budget) positions) := by
  induction positions generalizing now later with
  | nil => rfl
  | cons i rest ih =>
    rw [planAll] at done ⊢
    cases present : later[i]? with
    | none =>
      rw [Store.absent_before same present] at done
      simp only at done ⊢
      rw [ih same done, Store.walk_cons_none present]
    | some r =>
      obtain ⟨s, earlier, pair⟩ := Store.found_before same present
      have step : r.step = s.step := by
        have bare : r.bare.step = s.bare.step := by rw [pair]
        exact bare
      rw [earlier] at done
      simp only at done
      cases outcome : s.plan span budget with
      | error fault =>
        rw [outcome] at done
        cases done
      | ok planned =>
        rw [outcome] at done
        simp only at done
        have kept : (r.planned span budget).bare = planned.bare := by
          rw [(Series.planned_steps span budget r).bare_eq, (Series.plan_steps outcome).bare_eq,
            pair]
        simp only [Series.plan_of_step step outcome]
        rw [ih (Store.related_sets same kept) done, Store.walk_cons_some present]

/-- A plan that was made from some states of the series can be made from all others, and changes
each series by its step alone. -/
theorem exists_planning [Runtime] {budget : Option Int} {next : Store}
    (done : batch.prepare budget store = (.ok (), next)) :
    ∃ change, Series.IsPlanning change ∧
      ∀ later : Store, List.Forall₂ (fun s r : Series => r.bare = s.bare) store later →
        batch.prepare budget later = (.ok (), later.walk change (batch.present later)) := by
  cases budget with
  | none =>
    refine ⟨id, Series.isPlanning_id, fun later _ => ?_⟩
    rw [Store.walk_id]
    rfl
  | some budget =>
    simp only [prepare, consolidate] at done
    split at done
    · cases done
    · next checked =>
      have range {later : Store}
          (same : List.Forall₂ (fun s r : Series => r.bare = s.bare) store later) :
          timeRange (batch.series later) = timeRange (batch.series store) := by
        have bare (series : List Series) : timeRange (series.map Series.bare) = timeRange series :=
          timeRange_map Series.bare (fun _ => rfl) (fun _ => rfl) series
        rw [← bare, series_bare same, bare]
      split at done
      · next none =>
        refine ⟨id, Series.isPlanning_id, fun later same => ?_⟩
        simp only [prepare, consolidate, checked, range same, if_pos none]
        rw [Store.walk_id]
      · next some =>
        refine ⟨_, Series.isPlanning_planned ((timeRange (batch.series store)).2 -
          (timeRange (batch.series store)).1) budget, fun later same => ?_⟩
        simp only [prepare, consolidate, checked, range same, if_neg some]
        rw [present_eq same.length_eq.symm]
        exact planAll_of_bare same done

theorem resolve_eq {positions : List Nat} (named : batch.present store = positions) :
    batch.resolve .standard store =
      ((resolveAll .standard positions store).1, store.walk Series.resolved positions) := by
  rw [resolve, named, ← Series.resolvedBy_standard]
  exact Prod.ext rfl (Store.resolveAll_walk .standard positions store)

/-- A batch that was planned, resolved and read is planned and resolved again: the same series are
reported, and each one is as it was when it was first read or as that reading has left it. -/
theorem walks_again {change finish : Series → Series} (planning : Series.IsPlanning change)
    (finishes : ∀ s, s.resolved = s → ∃ view, finish s = { s with view })
    (again : ∀ s, finish (finish s) = finish s) {positions : List Nat} {next bound after : Store}
    (planned : next = store.walk change positions)
    (resolved : bound = next.walk Series.resolved positions)
    (finished : after = bound.walk finish positions) :
    (resolveAll .standard positions (after.walk change positions)).1 =
        (resolveAll .standard positions next).1 ∧
      List.Forall₂ (fun s r => r = s ∨ r = finish s) bound
        ((after.walk change positions).walk Series.resolved positions) ∧
      ∀ i, i ∉ positions →
        ((after.walk change positions).walk Series.resolved positions)[i]? = bound[i]? := by
  -- all states in terms of the first one: a position that comes twice is changed once
  have inside {i : Nat} (member : i ∈ positions) :
      next[i]? = store[i]?.map change ∧
      bound[i]? = store[i]?.map (fun s => (change s).resolved) ∧
      (after.walk change positions)[i]? =
        store[i]?.map (fun s => change (finish (change s).resolved)) ∧
      ((after.walk change positions).walk Series.resolved positions)[i]? =
        store[i]?.map (fun s => (change (finish (change s).resolved)).resolved) := by
    subst planned resolved finished
    simp only [Store.getElem?_walk_of_mem planning.again member,
      Store.getElem?_walk_of_mem again member,
      Store.getElem?_walk_of_mem Series.resolved_again member, Option.map_map, Function.comp_def,
      and_self]
  have outside {i : Nat} (other : i ∉ positions) :
      ((after.walk change positions).walk Series.resolved positions)[i]? = bound[i]? := by
    subst planned resolved finished
    simp only [Store.getElem?_walk_of_not_mem other]
  refine ⟨?_, ?_, fun i => outside⟩
  · rw [reports_of_resolveAll, reports_of_resolveAll]
    apply List.filterMap_congr
    intro i member
    obtain ⟨first, _, second, _⟩ := inside member
    rw [first, second]
    cases store[i]? with
    | none => rfl
    | some s => exact (planning.resolved_again (finishes _ (change s).resolved_again)).1
  · apply Store.related_of_getElem?
    · subst finished
      simp only [Store.length_walk]
    · intro i r last found final
      by_cases member : i ∈ positions
      · obtain ⟨_, first, _, second⟩ := inside member
        rw [first] at found
        rw [second] at final
        obtain ⟨s, earlier, rfl⟩ := Option.map_eq_some_iff.mp found
        rw [earlier] at final
        cases final
        exact (planning.resolved_again (finishes _ (change s).resolved_again)).2
      · rw [outside member, found] at final
        cases final
        exact .inl rfl

/-- Writing a resolved batch reads each series, or leaves it, and comes to the same again if some
series were read before. -/
theorem write_again [Runtime] {format : Format} {config : Config} {bound after : Store}
    {document : Document} (written : format.write config batch bound = (.ok document, after)) :
    ∃ finish : Series → Series,
      (∀ s, s.resolved = s → ∃ view, finish s = { s with view }) ∧
      (∀ s, finish (finish s) = finish s) ∧
      after = bound.walk finish (batch.present bound) ∧
      ∀ later : Store, List.Forall₂ (fun s r => r = s ∨ r = finish s) bound later →
        (∀ i, i ∉ batch.present bound → later[i]? = bound[i]?) →
        format.write config batch later = (.ok document, after) := by
  by_cases json : format = .json
  · subst json
    simp only [Format.write, Json.encode] at written
    rcases done : Json.contents (batch.present bound) bound with ⟨fault | found, last⟩
    · rw [done] at written
      cases written
    · rw [done] at written
      cases written
      refine ⟨fun s => (Json.entry s).2, ?_, ?_, ?_, ?_⟩
      · intro s settled
        simp only [Json.entry_snd]
        exact Series.aggregated_of_resolved settled
      · intro s
        simp only [Json.entry_again]
      · obtain ⟨visited, _, walked, whole⟩ := Store.contents_walk (batch.present bound) bound
        rw [done] at walked whole
        rw [whole found rfl] at walked
        exact walked
      · intro later read others
        have alike : List.Forall₂ (fun s r => Json.entry r = Json.entry s) bound later := by
          apply read.imp
          rintro s r (rfl | rfl)
          · rfl
          · exact Json.entry_again s
        simp only [Format.write, Json.encode]
        rw [present_eq read.length_eq.symm, Json.contents_congr alike others done]
        rfl
  · have left : after = bound := by
      cases format with
      | json => exact absurd rfl json
      | csv | pickle | protobuf | raw => exact (congrArg Prod.snd written).symm
    refine ⟨id, fun s _ => ⟨s.view, rfl⟩, fun _ => rfl, ?_, ?_⟩
    · rw [Store.walk_id, left]
    · intro later read _
      have equal : List.Forall₂ (fun s r : Series => s = r) bound later :=
        read.imp fun s r pair => (pair.elim id id).symm
      rw [List.forall₂_eq_eq_eq] at equal
      rw [← equal, written]

/-- A request made again from the state that it has left, by the same name and with the same budget
and configuration, gives the same document and the same reports, and leaves that state. -/
theorem encode_again [Runtime] {name : Text} {budget : Option Int} {config : Config} {after : Store}
    {document : Document} {unknowns : List UnknownReducer}
    (answer : store.perform (.encode batch name budget config) =
      (.ok (.document document unknowns), after)) :
    after.perform (.encode batch name budget config) =
      (.ok (.document document unknowns), after) := by
  rcases batch.encode_cases name budget config store with
    ⟨_, failed⟩ | ⟨fault, next, _, failed⟩ | ⟨format, next, named, prepared, done⟩
  · simp only [Store.perform, failed] at answer
    cases answer
  · simp only [Store.perform, failed] at answer
    cases answer
  · have evolves := Store.encode_evolves name budget config batch store
    rcases written : format.write config batch (batch.resolve .standard next).2 with
      ⟨fault | text, last⟩
    · simp only [Store.perform, done, written] at answer
      cases answer
    · simp only [done, written] at evolves
      simp only [Store.perform, done, written] at answer
      cases answer
      -- the plan and the reading, each as one change that the second request makes again
      obtain ⟨change, planning, plans⟩ := exists_planning prepared
      obtain ⟨finish, finishes, again, finished, rewritten⟩ := write_again written
      have untouched : List.Forall₂ (fun s r : Series => r.bare = s.bare) store store :=
        List.forall₂_same.mpr fun _ _ => rfl
      have planned : next = store.walk change (batch.present store) := by
        have both := prepared.symm.trans (plans store untouched)
        exact congrArg Prod.snd both
      have length : next.length = store.length := by rw [planned, Store.length_walk]
      have same : batch.present next = batch.present store := present_eq length
      have first := resolve_eq same
      have kept : (batch.resolve .standard next).2.length = store.length := by
        rw [first, Store.length_walk, length]
      rw [present_eq kept] at finished rewritten
      obtain ⟨reports, read, others⟩ :=
        walks_again planning finishes again planned (congrArg Prod.snd first) finished
      have replanned : batch.prepare budget after =
          (.ok (), after.walk change (batch.present store)) := by
        rw [plans after evolves.bare, present_eq evolves.length_eq.symm]
      have second : batch.resolve .standard (after.walk change (batch.present store)) =
          ((batch.resolve .standard next).1,
            (after.walk change (batch.present store)).walk Series.resolved
              (batch.present store)) := by
        have same : batch.present (after.walk change (batch.present store)) =
            batch.present store :=
          present_eq (by rw [Store.length_walk, evolves.length_eq])
        rw [resolve_eq same, reports, first]
      simp only [Store.perform, encode_eq named, replanned, second, rewritten _ read others]
      rfl

/-- A series that the budget regroups, one whose view is stale, and one without a reducer. -/
theorem encode_again_stale :
    ∃ (operations : List Operation) (document : Document) (after : Store),
      operations = [
        .makeTagged "a" [.ofNat 1, .missing, .ofNat 3, .ofNat 4, .ofNat 5, .ofNat 6, .ofNat 7] 10 0
          [],
        .makeTagged "b" [.ofNat 1] 70 0 [], .aggregated 1, .edit 1 (.values [.ofNat 2]),
        .makeTagged "c" [.ofNat 1, .missing] 35 0 [], .edit 2 (.consolidation "none"),
        .regroup 2 2] ∧
      (Store.run [] operations).perform
          (.encode [some 0, none, some 1, some 2, some 0] "JSON" (some 3) {}) =
        (.ok (.document document [⟨"c", "none"⟩]), after) ∧
      after.perform (.encode [some 0, none, some 1, some 2, some 0] "JSON" (some 3) {}) =
        (.ok (.document document [⟨"c", "none"⟩]), after) := by
  let operations : List Operation := [
    .makeTagged "a" [.ofNat 1, .missing, .ofNat 3, .ofNat 4, .ofNat 5, .ofNat 6, .ofNat 7] 10 0 [],
    .makeTagged "b" [.ofNat 1] 70 0 [], .aggregated 1, .edit 1 (.values [.ofNat 2]),
    .makeTagged "c" [.ofNat 1, .missing] 35 0 [], .edit 2 (.consolidation "none"), .regroup 2 2]
  let store : Store := Store.run [] operations
  let batch : Batch := [some 0, none, some 1, some 2, some 0]
  have reported : (batch.encode "JSON" (some 3) {} store).1.toOption.map (·.2) =
      some [⟨"c", "none"⟩] := by
    decide +kernel
  rcases written : batch.encode "JSON" (some 3) {} store with ⟨fault | ⟨document, unknowns⟩, after⟩
  · rw [written] at reported
    cases reported
  · rw [written] at reported
    have same : unknowns = [⟨"c", "none"⟩] := Option.some.inj reported
    have answer : store.perform (.encode batch "JSON" (some 3) {}) =
        (.ok (.document document [⟨"c", "none"⟩]), after) := by
      simp only [Store.perform, written, same]
      rfl
    exact ⟨operations, document, after, rfl, answer, encode_again answer⟩

end Batch

end Rollup
