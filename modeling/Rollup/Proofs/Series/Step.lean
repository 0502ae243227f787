import Mathlib.Data.List.Forall2
import Mathlib.Logic.Relation
import Rollup.Batch.Plan
import Rollup.Format.Json

/-!
What the calls on a series change in it, one change at a time. Main statements: resolution,
aggregation, planning and the entry of a document each leave a series by such steps, and the calls
that only ask answer the same when made again.
-/

namespace Rollup.Series

/-- A view worked out anew: the samples, or one sample of the bound reducer for each group. -/
def IsView (s : Series) (view : List Sample) : Prop :=
  (s.grouping ≤ 1 ∧ view = s.values) ∨
    (1 < s.grouping ∧ ∃ reducer, s.reducer = some reducer ∧
      reduceGroups reducer s.grouping.toNat s.values = .ok view)

/-- A look-up is made only while nothing is known, and a kept view is one worked out anew. -/
inductive Step (s : Series) : Series → Prop
  | bind (registry : Registry) (reducer : Reducer) : s.reducer = none → s.unresolved = none →
      registry.find? s.lookupName = some reducer →
      Step s { s with lookups := s.lookups + 1, reducer := some reducer }
  | fail (registry : Registry) : s.reducer = none → s.unresolved = none →
      registry.find? s.lookupName = none →
      Step s { s with lookups := s.lookups + 1, unresolved := some ⟨s.name, s.consolidation⟩ }
  | keep (view : List Sample) : s.IsView view → Step s { s with view := some view }
  | regroup (count : Int) : 0 ≤ count → Step s { s with grouping := count, view := none }

abbrev Steps : Series → Series → Prop := Relation.ReflTransGen Step

theorem Step.frame {s next : Series} (step : s.Step next) :
    next = { s with
      grouping := next.grouping
      reducer := next.reducer
      unresolved := next.unresolved
      lookups := next.lookups
      view := next.view } := by
  cases step <;> rfl

theorem Steps.frame {s next : Series} (steps : Steps s next) :
    next = { s with
      grouping := next.grouping
      reducer := next.reducer
      unresolved := next.unresolved
      lookups := next.lookups
      view := next.view } := by
  induction steps with
  | refl => rfl
  | tail _ step ih =>
    rw [ih] at step
    exact step.frame

/-- A series without its grouping and without anything that was worked out for it. -/
def bare (s : Series) : Series :=
  { s with grouping := 0, reducer := none, view := none, unresolved := none, lookups := 0 }

theorem Steps.bare_eq {s next : Series} (steps : Steps s next) : next.bare = s.bare := by
  rw [steps.frame]
  rfl

/-- What a resolution answers and leaves. -/
theorem resolve_cases (registry : Registry) (s : Series) :
    (∃ reducer, s.reducer = some reducer ∧ s.resolve registry = (.ok reducer, s)) ∨
    (s.reducer = none ∧ s.unresolved.isSome ∧
      s.resolve registry = (.error ⟨s.name, s.consolidation⟩, s)) ∨
    (s.reducer = none ∧ s.unresolved = none ∧
      ((∃ reducer, registry.find? s.lookupName = some reducer ∧
          s.resolve registry =
            (.ok reducer, { s with lookups := s.lookups + 1, reducer := some reducer })) ∨
        (registry.find? s.lookupName = none ∧
          s.resolve registry =
            (.error ⟨s.name, s.consolidation⟩,
              { s with
                lookups := s.lookups + 1
                unresolved := some ⟨s.name, s.consolidation⟩ })))) := by
  cases held : s.reducer with
  | some reducer => exact .inl ⟨reducer, rfl, by simp [resolve, held]⟩
  | none =>
    right
    cases missed : s.unresolved with
    | some unknown => exact .inl ⟨rfl, rfl, by simp [resolve, held, missed]⟩
    | none =>
      refine .inr ⟨rfl, rfl, ?_⟩
      cases found : registry.find? s.lookupName with
      | some reducer => exact .inl ⟨reducer, rfl, by simp [resolve, held, missed, found]⟩
      | none => exact .inr ⟨rfl, by simp [resolve, held, missed, found]⟩

theorem resolve_steps (registry : Registry) (s : Series) : Steps s (s.resolve registry).2 := by
  rcases s.resolve_cases registry with ⟨_, _, outcome⟩ | ⟨_, _, outcome⟩ |
    ⟨unbound, unasked, ⟨reducer, found, outcome⟩ | ⟨absent, outcome⟩⟩
  · rw [outcome]
  · rw [outcome]
  · rw [outcome]
    exact .single (.bind registry reducer unbound unasked found)
  · rw [outcome]
    exact .single (.fail registry unbound unasked absent)

/-- A resolution touches the reducer, the remembered failure and the count of look-ups only. -/
theorem resolve_frame (registry : Registry) (s : Series) :
    (s.resolve registry).2 =
      { s with
        reducer := (s.resolve registry).2.reducer
        unresolved := (s.resolve registry).2.unresolved
        lookups := (s.resolve registry).2.lookups } := by
  rcases s.resolve_cases registry with ⟨_, _, outcome⟩ | ⟨_, _, outcome⟩ |
    ⟨_, _, ⟨_, _, outcome⟩ | ⟨_, outcome⟩⟩
  all_goals rw [outcome]

/-- A resolution looks at the names, the reducer, the remembered failure and the count only. -/
theorem resolve_congr {s t : Series} (registry : Registry) (name : t.name = s.name)
    (consolidation : t.consolidation = s.consolidation) (reducer : t.reducer = s.reducer)
    (unresolved : t.unresolved = s.unresolved) (lookups : t.lookups = s.lookups) :
    t.resolve registry = ((s.resolve registry).1, { t with
      reducer := (s.resolve registry).2.reducer
      unresolved := (s.resolve registry).2.unresolved
      lookups := (s.resolve registry).2.lookups }) := by
  cases t
  simp only at name consolidation reducer unresolved lookups
  subst name consolidation reducer unresolved lookups
  rcases s.resolve_cases registry with ⟨reducer, held, outcome⟩ | ⟨unbound, failed, outcome⟩ |
    ⟨unbound, unasked, ⟨reducer, found, outcome⟩ | ⟨absent, outcome⟩⟩
  all_goals rw [outcome]
  · simp [resolve, held]
  · obtain ⟨unknown, missed⟩ := Option.isSome_iff_exists.mp failed
    simp [resolve, unbound, missed]
  · rw [lookupName] at found
    simp [resolve, lookupName, unbound, unasked, found]
  · rw [lookupName] at absent
    simp [resolve, lookupName, unbound, unasked, absent]

theorem resolve_view (registry : Registry) (s : Series) (view : Option (List Sample)) :
    ({ s with view }).resolve registry =
      ((s.resolve registry).1, { (s.resolve registry).2 with view }) := by
  rw [@resolve_congr s { s with view } registry rfl rfl rfl rfl rfl, resolve_frame]

theorem resolve_ok {registry : Registry} {s : Series} {reducer : Reducer}
    (bound : (s.resolve registry).1 = .ok reducer) :
    (s.resolve registry).2.reducer = some reducer := by
  rcases s.resolve_cases registry with ⟨_, held, outcome⟩ | ⟨_, _, outcome⟩ |
    ⟨_, _, ⟨_, _, outcome⟩ | ⟨_, outcome⟩⟩
  all_goals
    rw [outcome] at bound ⊢
    cases bound
  · exact held
  · rfl

/-- A failure is reported under the names that the series has now. -/
theorem resolve_error {registry : Registry} {s : Series} {unknown : UnknownReducer}
    (failed : (s.resolve registry).1 = .error unknown) : unknown = ⟨s.name, s.consolidation⟩ := by
  rcases s.resolve_cases registry with ⟨_, _, outcome⟩ | ⟨_, _, outcome⟩ |
    ⟨_, _, ⟨_, _, outcome⟩ | ⟨_, outcome⟩⟩
  all_goals
    rw [outcome] at failed
    cases failed
  · rfl
  · rfl

/-- What a recomputation answers and leaves, in terms of the resolution it makes. -/
theorem aggregate_cases (s : Series) :
    (s.grouping ≤ 1 ∧ s.aggregate = (.ok s.values, { s with view := some s.values })) ∨
    (1 < s.grouping ∧ ∃ unknown, (s.resolve .standard).1 = .error unknown ∧
      s.aggregate = (.error (.unknownReducer unknown), (s.resolve .standard).2)) ∨
    (1 < s.grouping ∧ ∃ reducer, (s.resolve .standard).1 = .ok reducer ∧
      ((∃ fault, reduceGroups reducer s.grouping.toNat s.values = .error fault ∧
          s.aggregate = (.error fault, (s.resolve .standard).2)) ∨
        ∃ view, reduceGroups reducer s.grouping.toNat s.values = .ok view ∧
          s.aggregate = (.ok view, { (s.resolve .standard).2 with view := some view }))) := by
  by_cases single : s.grouping ≤ 1
  · exact .inl ⟨single, by simp [aggregate, single]⟩
  · have grouped : 1 < s.grouping := by omega
    right
    rcases resolved : s.resolve .standard with ⟨outcome, after⟩
    cases outcome with
    | error unknown => exact .inl ⟨grouped, unknown, rfl, by simp [aggregate, single, resolved]⟩
    | ok reducer =>
      refine .inr ⟨grouped, reducer, rfl, ?_⟩
      cases reduced : reduceGroups reducer s.grouping.toNat s.values with
      | error fault => exact .inl ⟨fault, rfl, by simp [aggregate, single, resolved, reduced]⟩
      | ok view => exact .inr ⟨view, rfl, by simp [aggregate, single, resolved, reduced]⟩

theorem aggregate_steps (s : Series) : Steps s s.aggregate.2 := by
  rcases s.aggregate_cases with
    ⟨single, outcome⟩ | ⟨_, unknown, _, outcome⟩ | ⟨grouped, reducer, bound, reduced⟩
  · rw [outcome]
    exact .single (.keep s.values (.inl ⟨single, rfl⟩))
  · rw [outcome]
    exact resolve_steps .standard s
  · rcases reduced with ⟨fault, _, outcome⟩ | ⟨view, reduced, outcome⟩
    · rw [outcome]
      exact resolve_steps .standard s
    · rw [outcome]
      have stands : (s.resolve .standard).2.IsView view := by
        rw [resolve_frame]
        exact .inr ⟨grouped, reducer, resolve_ok bound, reduced⟩
      exact (resolve_steps .standard s).tail (.keep view stands)

theorem aggregated_steps (s : Series) : Steps s s.aggregated.2 := by
  simp only [aggregated]
  split
  · exact .refl
  · exact aggregate_steps s

/-- A recomputation touches what a resolution does, and the view. -/
theorem aggregate_frame (s : Series) :
    s.aggregate.2 =
      { s with
        reducer := s.aggregate.2.reducer
        unresolved := s.aggregate.2.unresolved
        lookups := s.aggregate.2.lookups
        view := s.aggregate.2.view } := by
  rcases s.aggregate_cases with
    ⟨_, outcome⟩ | ⟨_, unknown, _, outcome⟩ | ⟨_, reducer, _, answer⟩
  · rw [outcome]
  · rw [outcome, resolve_frame]
  · rcases answer with ⟨fault, _, outcome⟩ | ⟨view, _, outcome⟩
    · rw [outcome, resolve_frame]
    · rw [outcome, resolve_frame]

theorem aggregated_frame (s : Series) :
    s.aggregated.2 =
      { s with
        reducer := s.aggregated.2.reducer
        unresolved := s.aggregated.2.unresolved
        lookups := s.aggregated.2.lookups
        view := s.aggregated.2.view } := by
  simp only [aggregated]
  split
  · rfl
  · exact aggregate_frame s

theorem aggregatedTimestamps_snd (s : Series) : s.aggregatedTimestamps.2 = s.aggregated.2 := by
  simp only [aggregatedTimestamps]
  split <;> simp_all

theorem regroup_steps [Runtime] {s after : Series} {count : Int}
    (done : s.regroup count = .ok after) : Steps s after := by
  obtain ⟨_, allowed, rfl⟩ := regroup_eq_ok_iff.mp done
  exact .single (.regroup count allowed)

theorem plan_steps [Runtime] {s after : Series} {span budget : Int}
    (done : s.plan span budget = .ok after) : Steps s after := by
  simp only [plan] at done
  split at done
  · cases done
  · split at done
    · cases done
      exact .refl
    · split at done
      · cases done
      · exact regroup_steps done

theorem entry_steps (s : Series) : Steps s (Json.entry s).2 := by
  have first := aggregated_steps s
  simp only [Json.entry]
  split
  · next outcome => simpa [outcome] using first
  · next outcome => simpa [outcome] using first
  · next view after outcome =>
    rw [outcome] at first
    have second := aggregated_steps after
    rw [← aggregatedTimestamps_snd] at second
    split
    · next times => exact first.trans (by simpa [times] using second)
    · next times => exact first.trans (by simpa [times] using second)

theorem resolve_again (registry : Registry) (s : Series) :
    (s.resolve registry).2.resolve registry = s.resolve registry := by
  cases bound : s.reducer with
  | some reducer => simp [resolve, bound]
  | none =>
    cases failed : s.unresolved with
    | some unknown => simp [resolve, bound, failed]
    | none =>
      cases found : registry.find? s.lookupName with
      | some reducer => simp [resolve, bound, failed, found]
      | none => simp [resolve, bound, failed, found]

/-- A series that was resolved before is recomputed alike. -/
theorem aggregate_resolve (s : Series) (grouped : 1 < s.grouping) :
    (s.resolve .standard).2.aggregate = s.aggregate := by
  have stays : (s.resolve .standard).2.grouping = s.grouping ∧
      (s.resolve .standard).2.values = s.values := by
    rw [resolve_frame]
    exact ⟨rfl, rfl⟩
  have several : ¬ s.grouping ≤ 1 := by omega
  simp only [aggregate, stays.1, stays.2, if_neg several, resolve_again]

/-- A view that was answered is kept, and what keeps a view from being worked out stays. -/
theorem aggregated_again (s : Series) : s.aggregated.2.aggregated = s.aggregated := by
  cases kept : s.view with
  | some view => simp [aggregated, kept]
  | none =>
    have computed : s.aggregated = s.aggregate := by simp [aggregated, kept]
    have none_kept : (s.resolve .standard).2.view = none := by
      rw [resolve_frame]
      exact kept
    rw [computed]
    rcases s.aggregate_cases with
      ⟨_, outcome⟩ | ⟨grouped, unknown, failed, outcome⟩ | ⟨grouped, reducer, bound, reduced⟩
    · rw [outcome]
      rfl
    · rw [outcome]
      simp only [aggregated, none_kept, aggregate_resolve s grouped, outcome]
    · rcases reduced with ⟨fault, refused, outcome⟩ | ⟨view, _, outcome⟩
      · rw [outcome]
        simp only [aggregated, none_kept, aggregate_resolve s grouped, outcome]
      · rw [outcome]
        rfl

end Rollup.Series
