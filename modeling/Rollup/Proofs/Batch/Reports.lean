import Rollup.Proofs.Batch.Plan
import Rollup.Proofs.Format.Json

/-!
Binding the reducers of a batch before a document of it is written changes nothing in the document.
Main statement: a series is reported by the one exactly if the other leaves it out, because a
grouped series that keeps a view keeps the reducer that the view came from.
-/

namespace Rollup

namespace Series

/-- A grouped series has a view only together with its reducer. -/
def IsBound (s : Series) : Prop := 1 < s.grouping → s.view.isSome → s.reducer.isSome

theorem Fresh.isBound {s : Series} (fresh : s.Fresh) : s.IsBound := by
  intro grouped
  rw [fresh.grouping] at grouped
  cases grouped

theorem Step.isBound {s next : Series} (step : s.Step next) (bound : s.IsBound) :
    next.IsBound := by
  cases step with
  | bind registry reducer _ _ _ =>
    intro _ _
    rfl
  | fail registry _ _ _ => exact bound
  | keep view stands =>
    intro grouped _
    rcases stands with ⟨single, _⟩ | ⟨_, reducer, held, _⟩
    · exact absurd grouped (by simp only; omega)
    · exact Option.isSome_of_eq_some held
  | regroup count _ =>
    intro _ kept
    cases kept

/-- What a resolution of its batch leaves of a series, and the report it makes of it. -/
def resolved (s : Series) : Series := if s.grouping ≤ 1 then s else (s.resolve .standard).2

def report (s : Series) : Option UnknownReducer :=
  if s.grouping ≤ 1 then none
  else
    match (s.resolve .standard).1 with
    | .ok _ => none
    | .error unknown => some unknown

theorem resolved_steps (s : Series) : Steps s s.resolved := by
  rw [resolved]
  split
  · exact .refl
  · exact resolve_steps .standard s

theorem resolvedBy_standard : resolvedBy .standard = resolved := rfl

theorem resolved_view (s : Series) (view : Option (List Sample)) :
    ({ s with view }).resolved = { s.resolved with view } := by
  simp only [resolved, resolve_view]
  split <;> rfl

theorem report_view (s : Series) (view : Option (List Sample)) :
    ({ s with view }).report = s.report := by
  simp only [report, resolve_view]

theorem resolved_frame (s : Series) :
    s.resolved = { s with
      reducer := s.resolved.reducer
      unresolved := s.resolved.unresolved
      lookups := s.resolved.lookups } := by
  by_cases single : s.grouping ≤ 1
  · simp only [resolved, if_pos single]
  · simp only [resolved, if_neg single]
    exact resolve_frame .standard s

theorem resolved_again (s : Series) : s.resolved.resolved = s.resolved :=
  s.resolvedBy_again .standard

theorem report_resolved (s : Series) : s.resolved.report = s.report :=
  s.reportBy_resolvedBy .standard

theorem resolve_of_bound {s : Series} (registry : Registry) (held : s.reducer.isSome) :
    (s.resolve registry).2 = s := by
  obtain ⟨reducer, bound⟩ := Option.isSome_iff_exists.mp held
  simp [resolve, bound]

/-- A series that was resolved before is read alike: a kept view means there is nothing to bind. -/
theorem aggregated_resolved {s : Series} (bound : s.IsBound) :
    s.resolved.aggregated = s.aggregated := by
  by_cases single : s.grouping ≤ 1
  · rw [resolved, if_pos single]
  · have grouped : 1 < s.grouping := by omega
    rw [resolved, if_neg single]
    cases kept : s.view with
    | some view =>
      rw [resolve_of_bound .standard (bound grouped (Option.isSome_of_eq_some kept))]
    | none =>
      have none_kept : (s.resolve .standard).2.view = none := by
        rw [resolve_frame]
        exact kept
      simp only [aggregated, kept, none_kept, aggregate_resolve s grouped]

theorem unknown_of_report {s : Series} {unknown : UnknownReducer}
    (reported : s.report = some unknown) : unknown = ⟨s.name, s.consolidation⟩ := by
  rw [report] at reported
  split at reported
  · cases reported
  · split at reported
    · cases reported
    · next missing =>
      cases reported
      exact resolve_error missing

theorem entry_resolved {s : Series} (bound : s.IsBound) : Json.entry s.resolved = Json.entry s := by
  simp only [Json.entry, aggregated_resolved bound]

end Series

namespace Json

/-- What becomes of a series in a document: an entry for its view, or a report under its names. -/
def Accounts (s : Series) : Except UnknownReducer Entry → Prop
  | .ok e => ∃ view times, s.aggregated.1 = .ok view ∧ s.aggregatedTimestamps.1 = .ok times ∧
      times.length = view.length ∧ e = ⟨s.name, view.zip times, s.tags⟩
  | .error unknown => s.aggregated.1 = .error (.unknownReducer unknown) ∧
      (unknown = ⟨s.name, s.consolidation⟩ ∨ s.Feigns unknown)

theorem accounts_of_entry {s : Series} {outcome : Except UnknownReducer Entry}
    (written : (entry s).1 = .ok outcome) : Accounts s outcome := by
  rcases entry_cases s with
    ⟨unknown, hidden, left⟩ | ⟨fault, failed⟩ | ⟨view, times, _, read, timed, length, shown⟩
  · rw [left] at written
    cases written
    rcases answer : s.aggregated with ⟨fault | view, after⟩
    · cases fault with
      | unknownReducer other =>
        simp only [entry, answer, Except.ok.injEq, Except.error.injEq] at left
        have failed : s.aggregated.1 = .error (.unknownReducer unknown) := by rw [answer, left]
        exact ⟨failed, (Series.aggregated_unknown_iff.mp failed).2.imp_left
          Series.unknown_of_report⟩
      | _ => simp [isShown, answer] at hidden
    · simp [isShown, answer] at hidden
  · rw [failed] at written
    cases written
  · rw [shown] at written
    cases written
    exact ⟨view, times, read, timed, length, rfl⟩

/-- What becomes of the series of a batch, in order: entries in the document, where a reader finds
them, and reports beside it. -/
def Accounting (series : List Series) (outcomes : List (Except UnknownReducer Entry))
    (text : List Char) (unknowns : List UnknownReducer) : Prop :=
  List.Forall₂ Accounts series outcomes ∧
    text = document (outcomes.filterMap Except.toOption) ∧
    Reads text (outcomes.filterMap Except.toOption) ∧
    unknowns = outcomes.filterMap unknown?

theorem accounting_of_encode {batch : Batch} {store : Store} {text : List Char}
    {unknowns : List UnknownReducer} (done : (encode batch store).1 = .ok (text, unknowns)) :
    ∃ outcomes, Accounting (batch.series store) outcomes text unknowns := by
  rw [encode_fst] at done
  cases written : (batch.series store).mapM fun s => (entry s).1 with
  | error fault =>
    rw [written] at done
    cases done
  | ok outcomes =>
    rw [written] at done
    cases done
    exact ⟨outcomes, (mapM_eq_ok_iff.mp written).imp fun _ _ => accounts_of_entry, rfl,
      reads_document _, rfl⟩

/-- Contents depend on a store only through the entries of its series. -/
theorem contents_congr {positions : List Nat} {now later after : Store} {found : Contents}
    (same : List.Forall₂ (fun s next => entry next = entry s) now later)
    (others : ∀ i, i ∉ positions → later[i]? = now[i]?)
    (done : contents positions now = (.ok found, after)) :
    contents positions later = (.ok found, after) := by
  induction positions generalizing now later found with
  | nil =>
    have equal : later = now := List.ext_getElem? fun i => others i (by simp)
    rw [equal]
    exact done
  | cons i rest ih =>
    rw [contents] at done ⊢
    cases present : later[i]? with
    | none =>
      rw [Store.absent_before same present] at done
      apply ih same _ done
      intro j outside
      by_cases equal : j = i
      · rw [equal, present, Store.absent_before same present]
      · exact others j (by simp [equal, outside])
    | some next =>
      obtain ⟨s, earlier, answer⟩ := Store.found_before same present
      rw [earlier] at done
      simp only [answer] at done ⊢
      rcases read : entry s with ⟨fault | first, last⟩
      · rw [read] at done
        cases done
      · rw [read] at done
        simp only at done ⊢
        rcases tail : contents rest (now.set i last) with ⟨fault | contained, final⟩
        · rw [tail] at done
          cases done
        · rw [tail] at done
          cases done
          have rejoined : contents rest (later.set i last) = (.ok contained, final) := by
            apply ih (Store.related_sets same rfl) _ tail
            intro j outside
            by_cases equal : j = i
            · subst equal
              rw [List.getElem?_set_self (List.getElem?_eq_some_iff.mp present).1,
                List.getElem?_set_self (List.getElem?_eq_some_iff.mp earlier).1]
            · rw [List.getElem?_set_ne (Ne.symm equal), List.getElem?_set_ne (Ne.symm equal)]
              exact others j (by simp [equal, outside])
          rw [rejoined]
          rfl

end Json

namespace Batch

/-- A series that some resolutions may have gone over: it reads and reports as before. -/
structure IsAlike (s next : Series) : Prop where
  entry : Json.entry next = Json.entry s
  report : next.report = s.report
  bound : next.IsBound

theorem IsAlike.resolved {s next : Series} (alike : IsAlike s next) : IsAlike s next.resolved where
  entry := (Series.entry_resolved alike.bound).trans alike.entry
  report := next.report_resolved.trans alike.report
  bound := Store.invariant_steps (fun _ _ => Series.Step.isBound) next.resolved_steps alike.bound

theorem reports_of_resolveAll (positions : List Nat) (store : Store) :
    (resolveAll .standard positions store).1 =
      positions.filterMap fun i => (store[i]?).bind Series.report :=
  Store.resolveAll_reports .standard positions store

section

variable [Runtime]

end

end Batch

end Rollup
