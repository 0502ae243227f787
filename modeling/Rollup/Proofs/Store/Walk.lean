import Rollup.Proofs.Series.Step

/-!
Going over positions of a store, with one change for each series met. Main statements: resolving,
planning and reading a batch change a store in this way, up to the position at which they end, so
what they do to a store follows from what they do to one series.
-/

namespace Rollup

theorem Registry.isStatistic_of_standard {name : Text} {reducer : Reducer}
    (listed : standard.find? name = some reducer) :
    ∃ label f, reducer = .ofStatistic label f := by
  have all : ∀ entry ∈ standard.entries, ∃ label f, entry.2 = .ofStatistic label f := by
    simp only [standard, List.forall_mem_cons]
    exact ⟨⟨_, _, rfl⟩, ⟨_, _, rfl⟩, ⟨_, _, rfl⟩, ⟨_, _, rfl⟩, ⟨_, _, rfl⟩, ⟨_, _, rfl⟩,
      ⟨_, _, rfl⟩, ⟨_, _, rfl⟩, ⟨_, _, rfl⟩, ⟨_, _, rfl⟩, ⟨_, _, rfl⟩, ⟨_, _, rfl⟩,
      ⟨_, _, rfl⟩, ⟨_, _, rfl⟩, ⟨_, _, rfl⟩, ⟨_, _, rfl⟩, by simp⟩
  obtain ⟨entry, met, rfl⟩ := Option.map_eq_some_iff.mp listed
  exact all entry (List.mem_of_find?_eq_some met)

namespace Series

/-- What the resolution of a batch leaves of a series. -/
def resolvedBy (registry : Registry) (s : Series) : Series :=
  if s.grouping ≤ 1 then s else (s.resolve registry).2

/-- The report that the resolution of a batch makes of a series. -/
def reportBy (registry : Registry) (s : Series) : Option UnknownReducer :=
  if s.grouping ≤ 1 then none
  else
    match (s.resolve registry).1 with
    | .ok _ => none
    | .error unknown => some unknown

/-- What planning leaves of a series; one that cannot be planned stays. -/
def planned [Runtime] (span budget : Int) (s : Series) : Series :=
  match s.plan span budget with
  | .ok after => after
  | .error _ => s

theorem resolvedBy_steps (registry : Registry) (s : Series) : Steps s (s.resolvedBy registry) := by
  rw [resolvedBy]
  split
  · exact .refl
  · exact resolve_steps registry s

theorem resolvedBy_again (registry : Registry) (s : Series) :
    (s.resolvedBy registry).resolvedBy registry = s.resolvedBy registry := by
  by_cases single : s.grouping ≤ 1
  · simp only [resolvedBy, if_pos single]
  · have several : ¬ (s.resolve registry).2.grouping ≤ 1 := by
      rw [resolve_frame]
      exact single
    rw [resolvedBy, resolvedBy, if_neg single, if_neg several, resolve_again]

theorem reportBy_resolvedBy (registry : Registry) (s : Series) :
    (s.resolvedBy registry).reportBy registry = s.reportBy registry := by
  by_cases single : s.grouping ≤ 1
  · rw [resolvedBy, if_pos single]
  · have several : ¬ (s.resolve registry).2.grouping ≤ 1 := by
      rw [resolve_frame]
      exact single
    rw [resolvedBy, if_neg single, reportBy, reportBy, if_neg several, if_neg single, resolve_again]

/-- The bound reducer fails on a group as if it had not been found. -/
def Feigns (s : Series) (unknown : UnknownReducer) : Prop :=
  1 < s.grouping ∧ ∃ reducer, s.reducer = some reducer ∧
    reduceGroups reducer s.grouping.toNat s.values = .error (.unknownReducer unknown)

theorem reduceGroups_ofStatistic (label : String) (f : List Sample → Sample) (k : Nat)
    (values : List Sample) :
    reduceGroups (.ofStatistic label f) k values = .ok ((groups k values).map f) := by
  rw [reduceGroups]
  induction groups k values with
  | nil => rfl
  | cons group rest ih =>
    rw [List.mapM_cons, ih]
    rfl

/-- A reducer that a look-up finds reduces all groups, so only one that was bound before feigns. -/
theorem feigns_of_reduced {s : Series} {reducer : Reducer} {unknown : UnknownReducer}
    (grouped : 1 < s.grouping) (found : (s.resolve .standard).1 = .ok reducer)
    (reduced : reduceGroups reducer s.grouping.toNat s.values =
      .error (.unknownReducer unknown)) : s.Feigns unknown := by
  rcases s.resolve_cases .standard with ⟨other, held, outcome⟩ | ⟨_, _, outcome⟩ |
    ⟨_, _, ⟨other, listed, outcome⟩ | ⟨_, outcome⟩⟩
  all_goals
    rw [outcome] at found
    cases found
  · exact ⟨grouped, reducer, held, reduced⟩
  · obtain ⟨label, f, rfl⟩ := Registry.isStatistic_of_standard listed
    rw [reduceGroups_ofStatistic] at reduced
    cases reduced

/-- A reading of the view finds no reducer where a resolution of the batch would report it, unless a
view is kept. A reducer that is bound may only feign that. -/
theorem aggregated_unknown_iff {s : Series} {unknown : UnknownReducer} :
    s.aggregated.1 = .error (.unknownReducer unknown) ↔
      s.view = none ∧ (s.reportBy .standard = some unknown ∨ s.Feigns unknown) := by
  cases kept : s.view with
  | some view => simp [aggregated, kept]
  | none =>
    simp only [aggregated, kept, true_and]
    rcases s.aggregate_cases with
      ⟨single, outcome⟩ | ⟨grouped, _, failed, outcome⟩ | ⟨grouped, reducer, found, reduced⟩
    · have ungrouped : ¬ 1 < s.grouping := by omega
      simp [outcome, reportBy, single, Feigns, ungrouped]
    · have several : ¬ s.grouping ≤ 1 := by omega
      have unbound : s.reducer = none := by
        rcases s.resolve_cases .standard with ⟨_, _, outcome⟩ | ⟨unbound, _⟩ | ⟨unbound, _⟩
        · rw [outcome] at failed
          cases failed
        · exact unbound
        · exact unbound
      simp [outcome, reportBy, several, failed, Feigns, unbound]
    · have several : ¬ s.grouping ≤ 1 := by omega
      have unreported : s.reportBy .standard = none := by simp [reportBy, several, found]
      have feigned : s.Feigns unknown ↔
          reduceGroups reducer s.grouping.toNat s.values = .error (.unknownReducer unknown) := by
        constructor
        · rintro ⟨_, other, held, reduced⟩
          have same : (s.resolve .standard).1 = .ok other := by simp [resolve, held]
          rw [same] at found
          cases found
          exact reduced
        · exact feigns_of_reduced grouped found
      rw [unreported, feigned]
      rcases reduced with ⟨_, reduced, outcome⟩ | ⟨_, reduced, outcome⟩
      all_goals simp [outcome, reduced]

section

variable [Runtime]

/-- Planning touches the factor and the view. -/
theorem planned_frame (span budget : Int) (s : Series) :
    s.planned span budget =
      { s with
        grouping := (s.planned span budget).grouping
        view := (s.planned span budget).view } := by
  rw [planned]
  split
  · next after done =>
    simp only [plan] at done
    split at done
    · cases done
    · split at done
      · cases done
        rfl
      · split at done
        · cases done
        · obtain ⟨_, _, rfl⟩ := regroup_eq_ok_iff.mp done
          rfl
  · rfl

theorem planned_of_within {span budget : Int} {s : Series} (within : span.fdiv s.step ≤ budget) :
    s.planned span budget = s := by
  by_cases zero : s.step = 0
  · simp [planned, plan, zero]
  · simp [planned, plan, zero, within]

theorem planned_steps (span budget : Int) (s : Series) : Steps s (s.planned span budget) := by
  rw [planned]
  split
  · next done => exact plan_steps done
  · exact .refl

end

end Series

namespace Store

/-- A store after a change of the series at each of some positions, one after another. -/
def walk (change : Series → Series) (visited : List Nat) (store : Store) : Store :=
  visited.foldl (fun current i => current.modify i change) store

variable {change : Series → Series} {visited : List Nat} {store : Store} {i : Nat}

theorem walk_cons_none (absent : store[i]? = none) :
    store.walk change (i :: visited) = store.walk change visited := by
  simp [walk, List.modify_eq_set_getElem?, absent]

theorem walk_cons_some {s : Series} (found : store[i]? = some s) :
    store.walk change (i :: visited) = walk change visited (store.set i (change s)) := by
  simp [walk, List.modify_eq_set_getElem?, found]

theorem walk_id (visited : List Nat) (store : Store) : store.walk id visited = store := by
  induction visited with
  | nil => rfl
  | cons i rest ih => rw [walk, List.foldl_cons, List.modify_id, ← walk, ih]

theorem length_walk (change : Series → Series) (visited : List Nat) (store : Store) :
    (store.walk change visited).length = store.length := by
  induction visited generalizing store with
  | nil => rfl
  | cons i rest ih =>
    rw [walk, List.foldl_cons, ← walk, ih, List.length_modify]

theorem getElem?_walk_of_not_mem (outside : i ∉ visited) :
    (store.walk change visited)[i]? = store[i]? := by
  induction visited generalizing store with
  | nil => rfl
  | cons j rest ih =>
    rw [List.mem_cons, not_or] at outside
    rw [walk, List.foldl_cons, ← walk, ih outside.2, List.getElem?_modify]
    simp [Ne.symm outside.1]

/-- A change that adds nothing when made again is made once, however often a position comes. -/
theorem getElem?_walk_of_mem (again : ∀ s, change (change s) = change s) (member : i ∈ visited) :
    (store.walk change visited)[i]? = store[i]?.map change := by
  induction visited generalizing store with
  | nil => cases member
  | cons j rest ih =>
    rw [walk, List.foldl_cons, ← walk]
    by_cases later : i ∈ rest
    · rw [ih later, List.getElem?_modify]
      cases store[i]? with
      | none => rfl
      | some s => by_cases same : j = i <;> simp [same, again]
    · have same : j = i := by simpa [later, eq_comm] using member
      rw [getElem?_walk_of_not_mem later, List.getElem?_modify, same]
      simp

/-- What holds between a series and itself, and goes on to hold over a change, holds between the
series of a store and those that a walk leaves. -/
theorem related_walk {related : Series → Series → Prop} {now : Store}
    (pairs : List.Forall₂ related store now)
    (goes : ∀ s next, related s next → related s (change next)) (visited : List Nat) :
    List.Forall₂ related store (now.walk change visited) := by
  induction visited generalizing now with
  | nil => exact pairs
  | cons i rest ih =>
    rw [walk, List.foldl_cons, ← walk]
    apply ih
    clear ih
    induction pairs generalizing i with
    | nil => simp
    | cons pair others further =>
      cases i with
      | zero => exact .cons (goes _ _ pair) others
      | succ i => exact .cons pair (further i)

theorem resolveAll_walk (registry : Registry) (positions : List Nat) (store : Store) :
    (Batch.resolveAll registry positions store).2 =
      store.walk (Series.resolvedBy registry) positions := by
  fun_induction Batch.resolveAll registry positions store with
  | case1 store => rfl
  | case2 i rest store absent ih => rw [ih, walk_cons_none absent]
  | case3 i rest store s found single ih =>
    obtain ⟨inside, rfl⟩ := List.getElem?_eq_some_iff.mp found
    rw [ih, walk_cons_some found, Series.resolvedBy, if_pos single, List.set_getElem_self]
  | case4 i rest store s found grouped reducer next resolved ih =>
    rw [ih, walk_cons_some found, Series.resolvedBy, if_neg grouped, resolved]
  | case5 i rest store s found grouped unknown next resolved unknowns last tail ih =>
    rw [tail] at ih
    rw [ih, walk_cons_some found, Series.resolvedBy, if_neg grouped, resolved]

/-- A resolution goes on from series to series, each as an earlier position has left it. -/
theorem resolveAll_cons (registry : Registry) {s : Series} (found : store[i]? = some s)
    (rest : List Nat) :
    Batch.resolveAll registry (i :: rest) store =
      ((s.reportBy registry).toList ++
          (Batch.resolveAll registry rest (store.set i (s.resolvedBy registry))).1,
        (Batch.resolveAll registry rest (store.set i (s.resolvedBy registry))).2) := by
  rw [Batch.resolveAll, found]
  by_cases single : s.grouping ≤ 1
  · obtain ⟨inside, rfl⟩ := List.getElem?_eq_some_iff.mp found
    simp only [if_pos single, Series.reportBy, Series.resolvedBy, List.set_getElem_self]
    rfl
  · simp only [if_neg single, Series.reportBy, Series.resolvedBy]
    rcases s.resolve registry with ⟨unknown | reducer, next⟩
    · rfl
    · rfl

/-- The reports of a resolution are those of the series as they were before it. -/
theorem resolveAll_reports (registry : Registry) (positions : List Nat) (store : Store) :
    (Batch.resolveAll registry positions store).1 =
      positions.filterMap fun i => (store[i]?).bind (Series.reportBy registry) := by
  induction positions generalizing store with
  | nil => rfl
  | cons i rest ih =>
    cases present : store[i]? with
    | none => simp only [Batch.resolveAll, present, ih, List.filterMap_cons, Option.bind_none]
    | some s =>
      have same (j : Nat) :
          ((store.set i (s.resolvedBy registry))[j]?).bind (Series.reportBy registry) =
            (store[j]?).bind (Series.reportBy registry) := by
        by_cases equal : i = j
        · subst equal
          rw [List.getElem?_set_self (List.getElem?_eq_some_iff.mp present).1, present]
          exact s.reportBy_resolvedBy registry
        · rw [List.getElem?_set_ne equal]
      have head : (store[i]?).bind (Series.reportBy registry) = s.reportBy registry := by
        rw [present]
        rfl
      rw [resolveAll_cons registry present, ih]
      simp only [same, List.filterMap_cons, head]
      cases s.reportBy registry <;> rfl

theorem planAll_walk [Runtime] (span budget : Int) (positions : List Nat) (store : Store) :
    ∃ visited, visited <+: positions ∧
      (Batch.planAll span budget positions store).2 =
        store.walk (Series.planned span budget) visited ∧
      ((Batch.planAll span budget positions store).1 = .ok () → visited = positions) := by
  fun_induction Batch.planAll span budget positions store with
  | case1 store => exact ⟨[], List.prefix_rfl, rfl, fun _ => rfl⟩
  | case2 i rest store absent ih =>
    obtain ⟨visited, first, walked, whole⟩ := ih
    refine ⟨i :: visited, List.cons_prefix_cons.mpr ⟨rfl, first⟩, ?_, fun done => ?_⟩
    · rw [walked, walk_cons_none absent]
    · rw [whole done]
  | case3 i rest store s found fault failed =>
    exact ⟨[], List.nil_prefix, rfl, fun done => by cases done⟩
  | case4 i rest store s found next done ih =>
    obtain ⟨visited, first, walked, whole⟩ := ih
    refine ⟨i :: visited, List.cons_prefix_cons.mpr ⟨rfl, first⟩, ?_, fun done => ?_⟩
    · rw [walked, walk_cons_some found, Series.planned, done]
    · rw [whole done]

theorem contents_walk (positions : List Nat) (store : Store) :
    ∃ visited, visited <+: positions ∧
      (Json.contents positions store).2 = store.walk (fun s => (Json.entry s).2) visited ∧
      (∀ found, (Json.contents positions store).1 = .ok found → visited = positions) := by
  fun_induction Json.contents positions store with
  | case1 store => exact ⟨[], List.prefix_rfl, rfl, fun _ _ => rfl⟩
  | case2 i rest store absent ih =>
    obtain ⟨visited, first, walked, whole⟩ := ih
    refine ⟨i :: visited, List.cons_prefix_cons.mpr ⟨rfl, first⟩, ?_, fun found done => ?_⟩
    · rw [walked, walk_cons_none absent]
    · rw [whole found done]
  | case3 i rest store s found fault next outcome =>
    -- the series at which reading ends has changed too: its reducer may have been found by then
    refine ⟨[i], List.cons_prefix_cons.mpr ⟨rfl, List.nil_prefix⟩, ?_, fun _ done => by cases done⟩
    rw [walk_cons_some found, outcome]
    rfl
  | case4 i rest store s found first next outcome others last tail ih =>
    rw [tail] at ih
    obtain ⟨visited, start, walked, whole⟩ := ih
    refine ⟨i :: visited, List.cons_prefix_cons.mpr ⟨rfl, start⟩, ?_, fun found done => ?_⟩
    · rw [walked, walk_cons_some ‹store[i]? = some s›, outcome]
    · cases others with
      | error fault => cases done
      | ok contained => rw [whole contained rfl]

end Store

end Rollup
