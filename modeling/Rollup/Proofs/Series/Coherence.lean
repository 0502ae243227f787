import Rollup.Proofs.Groups
import Rollup.Proofs.Store.Evolution

/-!
A kept view is the view that would be worked out anew. Main statement: this holds of every series
in every state that calls can reach.
-/

namespace Rollup.Series

/-- A series keeps no view, or one that stands. The reducer of a grouped series with a view is
bound, and no step binds another, so the view goes on to stand. -/
def Coherent (s : Series) : Prop := ∀ view, s.view = some view → s.IsView view

theorem Fresh.coherent {s : Series} (fresh : s.Fresh) : s.Coherent := by
  intro view kept
  rw [fresh.view] at kept
  cases kept

theorem Step.coherent {s next : Series} (step : s.Step next) (coherent : s.Coherent) :
    next.Coherent := by
  cases step with
  | bind registry reducer unbound _ _ =>
    intro view kept
    rcases coherent view kept with single | ⟨_, held, bound, _⟩
    · exact .inl single
    · rw [unbound] at bound
      cases bound
  | fail registry _ _ _ => exact coherent
  | keep view stands =>
    intro other kept
    cases kept
    exact stands
  | regroup count _ =>
    intro view kept
    cases kept

theorem IsView.aggregate_eq {s : Series} {view : List Sample} (stands : s.IsView view) :
    s.aggregate = (.ok view, { s with view := some view }) := by
  rcases stands with ⟨single, rfl⟩ | ⟨grouped, reducer, bound, reduced⟩
  · simp [aggregate, single]
  · have several : ¬ s.grouping ≤ 1 := by omega
    simp [aggregate, several, resolve, bound, reduced]

/-- The parts of a grouped view come from the only split of the samples into groups. -/
theorem IsView.parts {s : Series} {view : List Sample} (stands : s.IsView view)
    (grouped : 1 < s.grouping) :
    ∃ reducer, s.reducer = some reducer ∧
      ∃ parts, (∀ other, IsSplit s.grouping.toNat s.values other ↔ other = parts) ∧
        List.Forall₂ (fun part x => reducer.reduce part = .ok x) parts view := by
  rcases stands with ⟨single, _⟩ | ⟨_, reducer, bound, reduced⟩
  · omega
  · have positive : 0 < s.grouping.toNat := by omega
    refine ⟨reducer, bound, groups s.grouping.toNat s.values, ?_, mapM_eq_ok_iff.mp reduced⟩
    intro other
    constructor
    · exact IsSplit.eq_groups positive
    · rintro rfl
      exact isSplit_groups positive s.values

theorem coherent_of_run [Runtime] {operations : List Operation}
    (calls : ∀ operation ∈ operations, operation.IsCall) :
    ∀ s ∈ Store.run [] operations, s.Coherent := by
  apply Store.invariant_run (fun _ => Fresh.coherent) (fun _ _ => Step.coherent) calls
  intro s none
  cases none

/-- Calls on fresh series, in any number and order and whether they answer or fail, leave each
series without a view or with the one that a recomputation gives. -/
theorem view_of_run [Runtime] {operations : List Operation}
    (calls : ∀ operation ∈ operations, operation.IsCall) {s : Series}
    (member : s ∈ Store.run [] operations) {view : List Sample} (kept : s.view = some view) :
    s.aggregate = (.ok view, s) ∧
      (s.grouping ≤ 1 → view = s.values) ∧
      (1 < s.grouping → ∃ reducer, s.reducer = some reducer ∧
        ∃ parts, (∀ other, IsSplit s.grouping.toNat s.values other ↔ other = parts) ∧
          List.Forall₂ (fun part x => reducer.reduce part = .ok x) parts view) := by
  have stands := coherent_of_run calls s member view kept
  refine ⟨?_, ?_, stands.parts⟩
  · rw [stands.aggregate_eq, ← kept]
  · intro single
    rcases stands with ⟨_, same⟩ | ⟨grouped, _⟩
    · exact same
    · omega

theorem view_of_run_grouped :
    ∃ operations : List Operation,
      operations = [.makeTagged "a" [.ofNat 1, .missing, .ofNat 3] 10 0 [], .regroup 0 2,
        .regroup 0 (-1), .json [some 0, none, some 0]] ∧
      (∀ operation ∈ operations, operation.IsCall) ∧
      ∃ s ∈ Store.run [] operations,
        s.view = some [.ofNat 1, .ofNat 3] ∧ s.aggregate = (.ok [.ofNat 1, .ofNat 3], s) := by
  refine ⟨_, rfl, ?_, ?_⟩
  · simp [Operation.IsCall]
  · have kept : ((Store.run [] [.makeTagged "a" [.ofNat 1, .missing, .ofNat 3] 10 0 [],
        .regroup 0 2, .regroup 0 (-1), .json [some 0, none, some 0]])[0]?).map (·.view) =
          some (some [.ofNat 1, .ofNat 3]) := by
      decide +kernel
    obtain ⟨s, found, view⟩ := Option.map_eq_some_iff.mp kept
    have member := List.mem_of_getElem? found
    exact ⟨s, member, view, (view_of_run (by simp [Operation.IsCall]) member view).1⟩

end Rollup.Series
