import Rollup.Proofs.Format.Json
import Rollup.Proofs.Store.Frame

/-!
A reducer is looked up once. Main statement: over any run of calls and edits a series waits for its
reducer until one look-up finds it or finds that there is none, and then has it or lacks it for
good; for a series that is not grouped only a direct resolution makes the look-up.
-/

namespace Rollup

namespace Series

/-- Nothing is known of the reducer yet. -/
def IsOpen (s : Series) : Prop := s.reducer = none ∧ s.unresolved = none

/-- Either there is a reducer or it is known that there is none. -/
def IsSettled (s : Series) : Prop := s.reducer.isSome ≠ s.unresolved.isSome

/-- What may come of the reducer of a series: it stays as it is, or one look-up settles it. -/
inductive Settles (s next : Series) : Prop
  | stays : next.reducer = s.reducer → next.unresolved = s.unresolved →
      next.lookups = s.lookups → Settles s next
  | asks : s.IsOpen → next.IsSettled → next.lookups = s.lookups + 1 → Settles s next

/-- A series that was never asked for more than once, and not at all while it is open. -/
def IsAskedOnce (s : Series) : Prop :=
  (s.IsOpen ∧ s.lookups = 0) ∨ (s.IsSettled ∧ s.lookups ≤ 1)

theorem IsOpen.not_settled {s : Series} (waits : s.IsOpen) : ¬ s.IsSettled := by
  simp [IsSettled, waits.1, waits.2]

theorem Settles.refl (s : Series) : Settles s s := .stays rfl rfl rfl

theorem Settles.trans {s next last : Series} (first : Settles s next)
    (second : Settles next last) : Settles s last := by
  cases first with
  | stays reducer unresolved lookups =>
    cases second with
    | stays reducer' unresolved' lookups' =>
      exact .stays (reducer'.trans reducer) (unresolved'.trans unresolved)
        (lookups'.trans lookups)
    | asks waits settled count =>
      rw [IsOpen, reducer, unresolved] at waits
      rw [lookups] at count
      exact .asks waits settled count
  | asks waits settled count =>
    cases second with
    | stays reducer unresolved lookups =>
      refine .asks waits ?_ (lookups.trans count)
      rw [IsSettled, reducer, unresolved]
      exact settled
    | asks waits_again _ _ => exact absurd settled waits_again.not_settled

theorem Settles.eq_of_known {s next : Series} (settles : Settles s next) (known : ¬ s.IsOpen) :
    next.reducer = s.reducer ∧ next.unresolved = s.unresolved ∧ next.lookups = s.lookups := by
  cases settles with
  | stays reducer unresolved lookups => exact ⟨reducer, unresolved, lookups⟩
  | asks waits _ _ => exact absurd waits known

theorem not_open_of_reducer {s : Series} (bound : s.reducer.isSome) : ¬ s.IsOpen := by
  rintro ⟨none, _⟩
  rw [none] at bound
  cases bound

theorem not_open_of_unresolved {s : Series} (failed : s.unresolved.isSome) : ¬ s.IsOpen := by
  rintro ⟨_, none⟩
  rw [none] at failed
  cases failed

theorem Step.settles {s next : Series} (step : s.Step next) : Settles s next := by
  cases step with
  | bind registry reducer unbound unfailed _ =>
    exact .asks ⟨unbound, unfailed⟩ (by simp [IsSettled, unfailed]) rfl
  | fail registry unbound unfailed _ =>
    exact .asks ⟨unbound, unfailed⟩ (by simp [IsSettled, unbound]) rfl
  | keep view _ => exact .stays rfl rfl rfl
  | regroup count _ => exact .stays rfl rfl rfl

theorem Steps.settles {s next : Series} (steps : Steps s next) : Settles s next := by
  induction steps with
  | refl => exact .refl s
  | tail _ step ih => exact ih.trans step.settles

theorem edit_settles {s : Series} {i : Nat} {change : Edit}
    (kept : (Operation.edit i change).KeepsReducer) : Settles s (s.edit change) := by
  cases change with
  | reducer reducer => exact kept.elim
  | _ => exact .stays rfl rfl rfl

theorem Fresh.isAskedOnce {s : Series} (fresh : s.Fresh) : s.IsAskedOnce := by
  cases given : s.reducer with
  | none => exact .inl ⟨⟨given, fresh.unresolved⟩, fresh.lookups⟩
  | some reducer =>
    right
    rw [IsSettled, given, fresh.unresolved, fresh.lookups]
    simp

theorem Settles.isAskedOnce {s next : Series} (settles : Settles s next)
    (once : s.IsAskedOnce) : next.IsAskedOnce := by
  cases settles with
  | stays reducer unresolved lookups =>
    rw [IsAskedOnce, IsOpen, IsSettled, reducer, unresolved, lookups]
    exact once
  | asks waits settled count =>
    rcases once with ⟨_, none⟩ | ⟨settled_before, _⟩
    · exact .inr ⟨settled, by omega⟩
    · exact absurd settled_before waits.not_settled

theorem IsAskedOnce.lookups_le {s : Series} (once : s.IsAskedOnce) : s.lookups ≤ 1 := by
  rcases once with ⟨_, none⟩ | ⟨_, few⟩
  · omega
  · exact few

theorem IsAskedOnce.not_both {s : Series} (once : s.IsAskedOnce) :
    ¬ (s.reducer.isSome ∧ s.unresolved.isSome) := by
  rintro ⟨bound, failed⟩
  rcases once with ⟨waits, _⟩ | ⟨settled, _⟩
  · rw [waits.1] at bound
    cases bound
  · exact settled (bound.trans failed.symm)

theorem resolve_of_reducer {s : Series} {reducer : Reducer} (bound : s.reducer = some reducer)
    (registry : Registry) : s.resolve registry = (.ok reducer, s) := by
  simp [resolve, bound]

theorem resolve_of_failure {s : Series} (unbound : s.reducer = none)
    (failed : s.unresolved.isSome) (registry : Registry) :
    s.resolve registry = (.error ⟨s.name, s.consolidation⟩, s) := by
  obtain ⟨unknown, remembered⟩ := Option.isSome_iff_exists.mp failed
  simp [resolve, unbound, remembered]

theorem IsAskedOnce.resolve_of_unresolved {s : Series} (once : s.IsAskedOnce)
    (failed : s.unresolved.isSome) (registry : Registry) :
    s.resolve registry = (.error ⟨s.name, s.consolidation⟩, s) := by
  have unbound : s.reducer = none := by
    by_contra bound
    exact once.not_both ⟨Option.isSome_iff_ne_none.mpr bound, failed⟩
  exact resolve_of_failure unbound failed registry

/-- A change without a look-up for a series that is not grouped. -/
structure Spares (s next : Series) : Prop where
  grouping : next.grouping = s.grouping
  lookups : s.grouping ≤ 1 → next.lookups = s.lookups

theorem Spares.refl (s : Series) : Spares s s := ⟨rfl, fun _ => rfl⟩

theorem Spares.trans {s next last : Series} (first : Spares s next) (second : Spares next last) :
    Spares s last where
  grouping := second.grouping.trans first.grouping
  lookups single := (second.lookups (by rwa [first.grouping])).trans (first.lookups single)

theorem Spares.same_or_grouped {s next : Series} (spares : Spares s next) :
    next.lookups = s.lookups ∨ (1 < s.grouping ∧ next.grouping = s.grouping) := by
  by_cases single : s.grouping ≤ 1
  · exact .inl (spares.lookups single)
  · exact .inr ⟨by omega, spares.grouping⟩

theorem resolve_spares {s : Series} (grouped : 1 < s.grouping) (registry : Registry) :
    Spares s (s.resolve registry).2 := by
  constructor
  · rw [resolve_frame]
  · intro single
    omega

theorem resolvedBy_spares (registry : Registry) (s : Series) :
    Spares s (s.resolvedBy registry) := by
  rw [resolvedBy]
  split
  · exact .refl s
  · exact resolve_spares (by omega) registry

theorem aggregate_spares (s : Series) : Spares s s.aggregate.2 := by
  rcases s.aggregate_cases with
    ⟨_, outcome⟩ | ⟨grouped, _, _, outcome⟩ | ⟨grouped, _, _, reduced⟩
  · rw [outcome]
    exact ⟨rfl, fun _ => rfl⟩
  · rw [outcome]
    exact resolve_spares grouped .standard
  · have resolved := resolve_spares grouped .standard
    rcases reduced with ⟨_, _, outcome⟩ | ⟨_, _, outcome⟩
    · rw [outcome]
      exact resolved
    · rw [outcome]
      exact ⟨resolved.grouping, resolved.lookups⟩

theorem aggregated_spares (s : Series) : Spares s s.aggregated.2 := by
  simp only [aggregated]
  split
  · exact .refl s
  · exact aggregate_spares s

end Series

namespace Operation

/-- A direct resolution of the series at a position. -/
def Resolves (i : Nat) : Operation → Prop
  | .resolve j _ => j = i
  | _ => False

end Operation

namespace Store

variable {store : Store} {i : Nat}

/-- The store in which an operation looks reducers up: a request for a document plans first. -/
def prepared [Runtime] (store : Store) : Operation → Store
  | .encode batch _ budget _ => (batch.prepare budget store).2
  | _ => store

theorem resolve_spares (registry : Registry) (batch : Batch) (store : Store) :
    List.Forall₂ Series.Spares store (batch.resolve registry store).2 := by
  rw [Batch.resolve, resolveAll_walk]
  apply related_walk (List.forall₂_same.mpr fun s _ => .refl s)
  intro s next spares
  exact spares.trans (Series.resolvedBy_spares registry next)

theorem json_spares (batch : Batch) (store : Store) :
    List.Forall₂ Series.Spares store (Json.encode batch store).2 := by
  obtain ⟨visited, _, walked, _⟩ := contents_walk (batch.present store) store
  change List.Forall₂ Series.Spares store (Json.contents (batch.present store) store).2
  rw [walked]
  apply related_walk (List.forall₂_same.mpr fun s _ => .refl s)
  intro s next spares
  rw [Json.entry_snd]
  exact spares.trans (Series.aggregated_spares next)

/-- Between two stores, no look-up is made for the series at a position unless it is grouped and
stays so. -/
def SparesAt (i : Nat) (before after : Store) : Prop :=
  ∃ s next, before[i]? = some s ∧ after[i]? = some next ∧
    (next.lookups = s.lookups ∨ (1 < s.grouping ∧ next.grouping = s.grouping))

variable {before after last : Store} {s : Series}

theorem sparesAt_self (found : store[i]? = some s) : SparesAt i store store :=
  ⟨s, s, found, found, .inl rfl⟩

theorem sparesAt_of_spares (spares : List.Forall₂ Series.Spares before after)
    (found : before[i]? = some s) : SparesAt i before after := by
  obtain ⟨next, later, spared⟩ := found_after spares found
  exact ⟨s, next, found, later, spared.same_or_grouped⟩

theorem sparesAt_onSeries (found : store[i]? = some s) {j : Nat}
    {act : Series → Except Fault Answer × Series}
    (spared : j = i → (act s).2.lookups = s.lookups ∨
      (1 < s.grouping ∧ (act s).2.grouping = s.grouping)) :
    SparesAt i store (store.onSeries j act).2 := by
  by_cases same : j = i
  · subst same
    have inside := (List.getElem?_eq_some_iff.mp found).1
    refine ⟨s, (act s).2, found, ?_, spared rfl⟩
    simp only [onSeries, found]
    exact List.getElem?_set_self inside
  · exact ⟨s, s, found, by rw [getElem?_onSeries (Ne.symm same), found], .inl rfl⟩

section

variable [Runtime]

theorem write_spares (format : Format) (config : Config) (batch : Batch) (store : Store) :
    List.Forall₂ Series.Spares store (format.write config batch store).2 := by
  cases format with
  | json => exact json_spares batch store
  | csv | pickle | protobuf | raw => exact List.forall₂_same.mpr fun s _ => .refl s

theorem consolidate_lookups (budget : Int) (batch : Batch) (store : Store) :
    List.Forall₂ (fun s next => next.lookups = s.lookups) store
      (batch.consolidate budget store).2 :=
  (consolidate_frame budget batch store).imp fun _ _ framed => by rw [framed]

theorem prepared_lookups {s : Series} (found : store[i]? = some s)
    (operation : Operation) :
    ∃ r, (store.prepared operation)[i]? = some r ∧ r.lookups = s.lookups := by
  cases operation with
  | encode batch name budget config =>
    obtain ⟨r, planned, framed⟩ := found_after (prepare_frame budget batch store) found
    exact ⟨r, planned, by rw [framed]⟩
  | _ => exact ⟨s, found, rfl⟩

theorem encode_sparesAt (found : store[i]? = some s) (batch : Batch)
    (name : Text) (budget : Option Int) (config : Config) :
    SparesAt i (batch.prepare budget store).2 (batch.encode name budget config store).2 := by
  obtain ⟨r, planned, count⟩ := prepared_lookups found (.encode batch name budget config)
  simp only [prepared] at planned
  rcases batch.encode_cases name budget config store with
    ⟨_, answer⟩ | ⟨fault, next, failed, answer⟩ | ⟨format, next, _, done, answer⟩
  · -- no format of that name: nothing was planned in fact, which looks nothing up
    rw [answer]
    exact ⟨r, s, planned, found, .inl count.symm⟩
  · rw [failed] at planned ⊢
    rw [answer]
    exact sparesAt_self planned
  · rw [done] at planned ⊢
    rw [answer]
    obtain ⟨bound, resolved, first⟩ := found_after (resolve_spares .standard batch next) planned
    obtain ⟨written, final, second⟩ := found_after (write_spares format config batch _) resolved
    exact ⟨r, written, planned, final, (first.trans second).same_or_grouped⟩

/-- Only a direct resolution looks up the reducer of a series that is not grouped. -/
theorem perform_sparesAt (found : store[i]? = some s) {operation : Operation}
    (indirect : ¬ operation.Resolves i) :
    SparesAt i (store.prepared operation) (store.perform operation).2 := by
  have inside := (List.getElem?_eq_some_iff.mp found).1
  cases operation with
  | make _ _ _ _ _ | makeTagged _ _ _ _ _ | insert _ =>
    exact ⟨s, s, found, (getElem?_add inside _).trans found, .inl rfl⟩
  | edit j change =>
    apply sparesAt_onSeries found
    intro _
    left
    cases change <;> rfl
  | regroup j count =>
    apply sparesAt_onSeries found
    intro _
    left
    cases outcome : s.regroup count with
    | error fault => rfl
    | ok next =>
      obtain ⟨_, _, rfl⟩ := Series.regroup_eq_ok_iff.mp outcome
      rfl
  | resolve j registry =>
    apply sparesAt_onSeries found
    intro same
    exact absurd same indirect
  | aggregate j => exact sparesAt_onSeries found fun _ => s.aggregate_spares.same_or_grouped
  | aggregated j => exact sparesAt_onSeries found fun _ => s.aggregated_spares.same_or_grouped
  | aggregatedTimestamps j =>
    apply sparesAt_onSeries found
    intro _
    simp only [Series.aggregatedTimestamps_snd]
    exact s.aggregated_spares.same_or_grouped
  | aggregatedStep j | timestamps j | check j bounds =>
    exact sparesAt_onSeries found fun _ => .inl rfl
  | consolidate batch budget =>
    obtain ⟨next, later, same⟩ := found_after (consolidate_lookups budget batch store) found
    exact ⟨s, next, found, later, .inl same⟩
  | resolveBatch batch registry =>
    exact sparesAt_of_spares (resolve_spares registry batch store) found
  | json batch => exact sparesAt_of_spares (json_spares batch store) found
  | csv | pickle | protobuf | raw => exact sparesAt_self found
  | encode batch name budget config => exact encode_sparesAt found batch name budget config

theorem perform_settles (found : store[i]? = some s) {operation : Operation}
    (kept : operation.KeepsReducer) :
    ∃ next, (store.perform operation).2[i]? = some next ∧ Series.Settles s next := by
  rcases kept.cases with call | ⟨j, change, rfl⟩
  · obtain ⟨next, later, steps⟩ := (perform_grows call store).found found
    exact ⟨next, later, steps.settles⟩
  · rw [perform_edit, List.getElem?_modify, found]
    refine ⟨_, rfl, ?_⟩
    split
    · exact Series.edit_settles kept
    · exact .refl s

theorem run_settles (found : store[i]? = some s) {operations : List Operation}
    (kept : ∀ operation ∈ operations, operation.KeepsReducer) :
    ∃ last, (store.run operations)[i]? = some last ∧ Series.Settles s last := by
  induction operations generalizing store s with
  | nil => exact ⟨s, found, .refl s⟩
  | cons operation rest ih =>
    obtain ⟨next, later, first⟩ := perform_settles found (kept operation (by simp))
    obtain ⟨last, final, second⟩ :=
      ih later fun other member => kept other (List.mem_cons_of_mem _ member)
    exact ⟨last, final, first.trans second⟩

theorem isAskedOnce_of_run {operations : List Operation}
    (kept : ∀ operation ∈ operations, operation.KeepsReducer) :
    ∀ s ∈ run [] operations, s.IsAskedOnce :=
  invariant_kept_run (fun _ => Series.Fresh.isAskedOnce)
    (fun _ _ step => step.settles.isAskedOnce)
    (fun _ _ _ kept => (Series.edit_settles kept).isAskedOnce) kept (by simp)

/-- Between any two points of a run of calls and of edits to all but reducers and factors, a series
keeps what is known of its reducer, unless nothing was known and one look-up has settled it. There
is no other look-up: a reducer that was given or found is what every later resolution answers, and
after a failure each one fails, whatever registry or name it is asked with by then. What an
operation other than a direct resolution looks up is for grouped series only. -/
theorem resolution_of_run {operations later : List Operation}
    (kept : ∀ operation ∈ operations ++ later, operation.KeepsReducer) {i : Nat} {s : Series}
    (found : (run [] operations)[i]? = some s) :
    ∃ last, (run [] (operations ++ later))[i]? = some last ∧
      last.lookups ≤ 1 ∧
      (s.Fresh → s.reducer.isSome → last.lookups = 0) ∧
      ¬ (last.reducer.isSome ∧ last.unresolved.isSome) ∧
      (last.lookups = s.lookups →
        last.reducer = s.reducer ∧ last.unresolved = s.unresolved) ∧
      (last.lookups ≠ s.lookups →
        s.IsOpen ∧ last.IsSettled ∧ last.lookups = s.lookups + 1) ∧
      (∀ reducer, s.reducer = some reducer → last.lookups = s.lookups ∧
        ∀ registry, last.resolve registry = (.ok reducer, last)) ∧
      (s.unresolved.isSome → last.lookups = s.lookups ∧
        ∀ registry, last.resolve registry = (.error ⟨last.name, last.consolidation⟩, last)) ∧
      ∀ operation : Operation, ¬ operation.Resolves i →
        ∃ r next, ((run [] (operations ++ later)).prepared operation)[i]? = some r ∧
          ((run [] (operations ++ later)).perform operation).2[i]? = some next ∧
          r.lookups = last.lookups ∧
          (next.lookups = r.lookups ∨ (1 < r.grouping ∧ next.grouping = r.grouping)) := by
  have whole : run [] (operations ++ later) = (run [] operations).run later :=
    List.foldl_append
  obtain ⟨last, final, settles⟩ :=
    run_settles found fun operation member => kept operation (List.mem_append_right _ member)
  rw [← whole] at final
  have once : last.IsAskedOnce := isAskedOnce_of_run kept last (List.mem_of_getElem? final)
  refine ⟨last, final, once.lookups_le, ?_, once.not_both, ?_, ?_, ?_, ?_, ?_⟩
  · intro fresh given
    have count := (settles.eq_of_known (Series.not_open_of_reducer given)).2.2
    rw [count, fresh.lookups]
  · intro same
    cases settles with
    | stays reducer unresolved _ => exact ⟨reducer, unresolved⟩
    | asks _ _ count => omega
  · intro differs
    cases settles with
    | stays _ _ same => exact absurd same differs
    | asks waits settled count => exact ⟨waits, settled, count⟩
  · intro reducer held
    have known := Series.not_open_of_reducer (Option.isSome_of_eq_some held)
    obtain ⟨same, _, count⟩ := settles.eq_of_known known
    exact ⟨count, Series.resolve_of_reducer (same.trans held)⟩
  · intro failed
    obtain ⟨_, same, count⟩ := settles.eq_of_known (Series.not_open_of_unresolved failed)
    exact ⟨count, once.resolve_of_unresolved (by rwa [same])⟩
  · intro operation indirect
    obtain ⟨r, before, count⟩ := prepared_lookups final operation
    obtain ⟨r', next, before', after, spared⟩ := perform_sparesAt final indirect
    rw [before] at before'
    cases before'
    exact ⟨r, next, before, after, count, spared⟩

end

/-- A look-up has failed, and the series then takes a name that has a reducer. -/
theorem resolution_of_run_failed :
    ∃ (operations later : List Operation) (last : Series),
      operations = [.makeTagged "a" [.ofNat 1, .missing, .ofNat 3] 10 0 [],
        .edit 0 (.consolidation "none"), .regroup 0 2, .aggregated 0] ∧
      later = [.edit 0 (.consolidation "sum"), .edit 0 (.name "b"), .json [some 0, none, some 0],
        .resolve 0 .standard] ∧
      (∀ operation ∈ operations ++ later, operation.KeepsReducer) ∧
      (run [] (operations ++ later))[0]? = some last ∧ last.lookups = 1 ∧
      ∀ registry, last.resolve registry = (.error ⟨last.name, last.consolidation⟩, last) := by
  let operations : List Operation := [.makeTagged "a" [.ofNat 1, .missing, .ofNat 3] 10 0 [],
    .edit 0 (.consolidation "none"), .regroup 0 2, .aggregated 0]
  let later : List Operation := [.edit 0 (.consolidation "sum"), .edit 0 (.name "b"),
    .json [some 0, none, some 0], .resolve 0 .standard]
  have kept : ∀ operation ∈ operations ++ later, operation.KeepsReducer := by
    simp [operations, later, Operation.KeepsReducer, Operation.IsCall]
  have state : ((run [] operations)[0]?).map (fun s => (s.unresolved, s.lookups)) =
      some (some ⟨"a", "none"⟩, 1) := by
    decide +kernel
  obtain ⟨s, found, known⟩ := Option.map_eq_some_iff.mp state
  obtain ⟨failed, count⟩ := Prod.mk.inj known
  obtain ⟨last, final, _, _, _, _, _, _, fails, _⟩ := resolution_of_run kept found
  obtain ⟨same, errors⟩ := fails (Option.isSome_of_eq_some failed)
  exact ⟨operations, later, last, rfl, rfl, kept, final, same.trans count, errors⟩

end Store

end Rollup
