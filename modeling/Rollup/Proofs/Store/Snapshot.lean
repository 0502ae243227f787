import Rollup.Proofs.Series.Coherence
import Rollup.Proofs.Store.Remembered
import Rollup.Proofs.Store.Views

/-!
A kept view is a snapshot. Main statement: over any run of operations, plain edits included, a view
is served as it was first kept, until the series is given a new grouping factor or a recomputation
of it succeeds; a new factor, be it the same number, leaves no view before the next operation that
reads it.
-/

namespace Rollup

namespace Store

variable {store after : Store} {i : Nat} {s : Series}

theorem points_of_accounts {view : List Sample} (kept : s.view = some view)
    {outcome : Except UnknownReducer Json.Entry} (accounts : Json.Accounts s outcome) :
    ∃ e, outcome = .ok e ∧ e.points.map (·.1) = view := by
  have answer := Series.aggregated_of_kept kept
  cases outcome with
  | error unknown =>
    obtain ⟨hidden, _⟩ := accounts
    rw [answer] at hidden
    cases hidden
  | ok e =>
    obtain ⟨shown, times, read, _, length, rfl⟩ := accounts
    rw [answer] at read
    cases read
    exact ⟨_, rfl, List.map_fst_zip length.ge⟩

section

variable [Runtime]

/-- A view that comes where there was none is the one that a recomputation gives. -/
theorem aggregate_of_fresh (found : store[i]? = some s) (absent : s.view = none)
    {operation : Operation} (call : operation.IsCall) {next : Series}
    (later : (store.perform operation).2[i]? = some next) {view : List Sample}
    (kept : next.view = some view) : next.aggregate = (.ok view, next) := by
  have coherent : s.Coherent := by simp [Series.Coherent, absent]
  obtain ⟨r, final, steps⟩ := (perform_grows call store).found found
  have same : r = next := Option.some.inj (final.symm.trans later)
  rw [same] at steps
  have stands : next.IsView view :=
    invariant_steps (fun _ _ => Series.Step.coherent) steps coherent view kept
  calc next.aggregate = (.ok view, { next with view := some view }) := stands.aggregate_eq
    _ = (.ok view, next) := by rw [← kept]

/-- A series keeps its position. -/
theorem found_perform (found : store[i]? = some s) (operation : Operation) :
    ∃ next, (store.perform operation).2[i]? = some next := by
  by_cases call : operation.IsCall
  · obtain ⟨next, later, _⟩ := (perform_grows call store).found found
    exact ⟨next, later⟩
  · cases operation with
    | edit j change =>
      rw [perform_edit, List.getElem?_modify, found]
      exact ⟨_, rfl⟩
    | insert r =>
      exact ⟨s, (getElem?_add (List.getElem?_eq_some_iff.mp found).1 (.ok r)).trans found⟩
    | _ => exact absurd trivial call

/-- A statement about each operation of a run and the store that it finds. -/
def Throughout (holds : Store → Operation → Prop) (store : Store) : List Operation → Prop
  | [] => True
  | operation :: rest =>
    holds store operation ∧ Throughout holds (store.perform operation).2 rest

instance decidableThroughout (holds : Store → Operation → Prop)
    [decide : ∀ store operation, Decidable (holds store operation)] (store : Store) :
    (operations : List Operation) → Decidable (Throughout holds store operations)
  | [] => .isTrue trivial
  | operation :: rest =>
    have := decidableThroughout holds (store.perform operation).2 rest
    inferInstanceAs (Decidable (_ ∧ _))

/-- The series at a position is given no new factor, and no recomputation of its view succeeds. -/
def KeepsView (i : Nat) (store : Store) (operation : Operation) : Prop :=
  ¬ operation.Regroups i store ∧ ¬ operation.Recomputes i store

instance (i : Nat) (store : Store) (operation : Operation) :
    Decidable (KeepsView i store operation) :=
  inferInstanceAs (Decidable (¬ _ ∧ ¬ _))

theorem viewAt_run {view : List Sample} (kept : store.viewAt i = some view)
    {operations : List Operation} (stays : Throughout (KeepsView i) store operations) :
    (store.run operations).viewAt i = some view := by
  induction operations generalizing store with
  | nil => exact kept
  | cons operation rest ih => exact ih (viewAt_of_kept kept stays.1) stays.2

/-- A view is what the series at a position shows: a reading answers it and changes nothing, neither
the count of look-ups nor anything else; it does so with any reducer, even one that refuses all; and
in each document that is written a reader finds one entry of the series for each place that it has
in the batch, with one point for each sample of the view. -/
structure Serves (store : Store) (i : Nat) (view : List Sample) : Prop where
  read : store.perform (.aggregated i) = (.ok (.samples view), store)
  unreduced : ∀ s reducer, store[i]? = some s →
    ({ s with reducer } : Series).aggregated = (.ok view, { s with reducer })
  written : ∀ batch text unknowns after,
    store.perform (.json batch) = (.ok (.document (.text text) unknowns), after) →
      ∃ outcomes, Json.Reads text (outcomes.filterMap Except.toOption) ∧
        List.Forall₂ (fun j outcome => ∃ r, store[j]? = some r ∧ Json.Accounts r outcome ∧
          (j = i → ∃ e, outcome = .ok e ∧ e.points.map (·.1) = view))
          (batch.present store) outcomes

theorem serves_of_kept {view : List Sample} (shown : store.viewAt i = some view) :
    store.Serves i view := by
  obtain ⟨s, found, kept⟩ := Option.bind_eq_some_iff.mp shown
  refine ⟨?_, ?_, ?_⟩
  · rw [perform]
    apply onSeries_of_stays found
    rw [Series.aggregated_of_kept kept]
    rfl
  · intro r reducer found'
    rw [found] at found'
    cases found'
    exact Series.aggregated_of_kept kept
  · intro batch text unknowns after answer
    have encoded := congrArg Prod.fst (Json.encode_of_perform answer)
    obtain ⟨outcomes, accounts, _, reads, _⟩ := Json.accounting_of_encode encoded
    refine ⟨outcomes, reads, (Batch.related_present accounts).imp ?_⟩
    rintro j outcome ⟨r, found', accounts⟩
    refine ⟨r, found', accounts, ?_⟩
    rintro rfl
    rw [found] at found'
    cases found'
    exact points_of_accounts kept accounts

/-- After a run, one operation reads the series at a position where there is no view, and leaves the
view that a recomputation gives. -/
structure WorksOut (store : Store) (before : List Operation) (read : Operation) (i : Nat) :
    Prop where
  reads : read.Reads i
  absent : (store.run before).viewAt i = none
  fresh : ∃ s view, ((store.run before).perform read).2[i]? = some s ∧ s.view = some view ∧
    s.aggregate = (.ok view, s)

/-- There is no view, and after any run there is none unless an operation of it works one out. -/
def LacksView (store : Store) (i : Nat) : Prop :=
  store.viewAt i = none ∧ ∀ operations, (store.run operations).viewAt i ≠ none →
    ∃ before read rest, operations = before ++ read :: rest ∧ store.WorksOut before read i

theorem lacksView_of_absent (found : store[i]? = some s) (absent : store.viewAt i = none) :
    store.LacksView i := by
  refine ⟨absent, ?_⟩
  intro operations present
  induction operations generalizing store s with
  | nil => exact absurd absent present
  | cons operation rest ih =>
    obtain ⟨next, later⟩ := found_perform found operation
    cases kept : next.view with
    | none =>
      have still : (store.perform operation).2.viewAt i = none := by
        rw [viewAt_of_found later, kept]
      obtain ⟨before, read, after, whole, reads, lacks, fresh⟩ := ih later still present
      exact ⟨operation :: before, read, after, by rw [whole, List.cons_append], reads, lacks, fresh⟩
    | some view =>
      have reads : operation.Reads i := by
        by_contra unread
        have still := viewAt_of_unread found (.inl absent) unread
        rw [viewAt_of_found later, kept] at still
        cases still
      have none_kept : s.view = none := (viewAt_of_found found).symm.trans absent
      have fresh := aggregate_of_fresh found none_kept reads.isCall later kept
      exact ⟨[], operation, rest, rfl, reads, absent, next, view, later, kept, fresh⟩

/-- A view that is kept in any state, however it came about, is what the series shows after every
run that neither regroups the series nor recomputes its view, whatever else the run does to this
series and to others. After a new factor there is no view, and none comes but by an operation that
works it out. -/
theorem snapshot_of_run (store : Store) (i : Nat) :
    (∀ view, store.viewAt i = some view →
      ∀ operations, Throughout (KeepsView i) store operations →
        (store.run operations).Serves i view) ∧
    ∀ operation, i < store.length → operation.Regroups i store → ¬ operation.Reads i →
      (store.perform operation).2.LacksView i := by
  constructor
  · intro view kept operations stays
    exact serves_of_kept (viewAt_run kept stays)
  · intro operation inside regroups unread
    have found := List.getElem?_eq_getElem inside
    obtain ⟨next, later⟩ := found_perform found operation
    exact lacksView_of_absent later (viewAt_of_unread found (.inr regroups) unread)

end

/-- The samples, the names, the reducer and the factor are all changed without a call, so that the
view could not be worked out again; the last factor is the one that the series already has. -/
theorem snapshot_of_run_edited :
    ∃ (store last : Store) (operations : List Operation),
      store = run [] [.makeTagged "a" [.ofNat 1, .missing, .ofNat 3] 10 0 [], .regroup 0 2,
        .aggregated 0] ∧
      operations = [.edit 0 (.values [.ofNat 9]), .edit 0 (.append .missing), .edit 0 (.step 7),
        .edit 0 (.name "b"), .edit 0 (.consolidation "none"), .edit 0 (.reducer none),
        .edit 0 (.grouping 3), .regroup 0 (-1), .aggregate 0, .json [some 0, none, some 0],
        .consolidate [some 0] 100, .encode [some 0] "csv" (some 100) {}] ∧
      Throughout (KeepsView 0) store operations ∧ last = store.run operations ∧
      (last.perform (.aggregate 0)).1.isOk = false ∧ last.Serves 0 [.ofNat 1, .ofNat 3] ∧
      last[0]?.map (·.grouping) = some 3 ∧ (last.perform (.regroup 0 3)).2.LacksView 0 := by
  obtain ⟨store, made⟩ : ∃ store : Store, store = run []
    [.makeTagged "a" [.ofNat 1, .missing, .ofNat 3] 10 0 [], .regroup 0 2, .aggregated 0] :=
      ⟨_, rfl⟩
  let operations : List Operation := [.edit 0 (.values [.ofNat 9]), .edit 0 (.append .missing),
    .edit 0 (.step 7), .edit 0 (.name "b"), .edit 0 (.consolidation "none"),
    .edit 0 (.reducer none), .edit 0 (.grouping 3), .regroup 0 (-1), .aggregate 0,
    .json [some 0, none, some 0], .consolidate [some 0] 100,
    .encode [some 0] "csv" (some 100) {}]
  have kept : store.viewAt 0 = some [.ofNat 1, .ofNat 3] := by
    rw [made]
    decide +kernel
  have stays : Throughout (KeepsView 0) store operations := by
    rw [made]
    decide +kernel
  have fails : ((store.run operations).perform (.aggregate 0)).1.isOk = false := by
    rw [made]
    decide +kernel
  have factor : (store.run operations)[0]?.map (·.grouping) = some 3 := by
    rw [made]
    decide +kernel
  have inside : 0 < (store.run operations).length := by
    rw [made]
    decide +kernel
  have serves := (snapshot_of_run store 0).1 _ kept operations stays
  have lacks := (snapshot_of_run (store.run operations) 0).2 (.regroup 0 3) inside
    ⟨rfl, isWritable_of_lt (by decide +kernel), by decide⟩ id
  exact ⟨store, store.run operations, operations, made, rfl, stays, rfl, fails, serves, factor,
    lacks⟩

end Store

end Rollup
