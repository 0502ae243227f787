import Mathlib.Data.List.Induction
import Rollup.Proofs.Batch.Reports
import Rollup.Proofs.Store.Resolution

/-!
What is reported of a series after a failed look-up. Main statement: the failure that a series
remembers is that of one look-up in its past, made under the names that the series had then; every
later attempt fails too, without a look-up, and is reported under the names that it has by now. The
two differ after an edit of a name.
-/

namespace Rollup

namespace Operation

/-- Calls, and plain edits of any field; a series that is added is one as made. -/
def AddsFresh : Operation → Prop
  | .insert s => s.Fresh
  | _ => True

/-- Plain edits, of the series at a position, of a name that is reported. -/
def Renames (i : Nat) : Operation → Prop
  | .edit j (.name _) | .edit j (.consolidation _) => j = i
  | _ => False

/-- Where an operation looks reducers up. -/
def registry : Operation → Registry
  | .resolve _ registry | .resolveBatch _ registry => registry
  | _ => .standard

theorem AddsFresh.cases {operation : Operation} (fresh : operation.AddsFresh) :
    operation.IsCall ∨ ∃ i change, operation = .edit i change := by
  cases operation with
  | edit i change => exact .inr ⟨i, change, rfl⟩
  | insert s => exact .inl fresh
  | _ => exact .inl trivial

end Operation

namespace Series

/-- What look-ups in a registry may leave of a series: it remembers what it did before, or that a
look-up under its names has failed. -/
structure Recalls (registry : Registry) (s next : Series) : Prop where
  name : next.name = s.name
  consolidation : next.consolidation = s.consolidation
  unbound : next.reducer = none → s.reducer = none
  unresolved : next.unresolved = s.unresolved ∨
    s.IsOpen ∧ registry.find? s.lookupName = none ∧
      next.unresolved = some ⟨s.name, s.consolidation⟩

variable {registry : Registry} {s next last : Series}

theorem Recalls.refl (registry : Registry) (s : Series) : Recalls registry s s :=
  ⟨rfl, rfl, id, .inl rfl⟩

theorem Recalls.trans (first : Recalls registry s next) (second : Recalls registry next last) :
    Recalls registry s last where
  name := second.name.trans first.name
  consolidation := second.consolidation.trans first.consolidation
  unbound := first.unbound ∘ second.unbound
  unresolved := by
    have asked : next.lookupName = s.lookupName := by
      rw [lookupName, lookupName, first.consolidation]
    rcases second.unresolved with kept | ⟨waits, absent, records⟩
    · rw [kept]
      exact first.unresolved
    · rw [asked] at absent
      rw [first.name, first.consolidation] at records
      rcases first.unresolved with same | ⟨_, _, recorded⟩
      · exact .inr ⟨⟨first.unbound waits.1, same ▸ waits.2⟩, absent, records⟩
      · rw [waits.2] at recorded
        cases recorded

theorem resolve_recalls (registry : Registry) (s : Series) :
    Recalls registry s (s.resolve registry).2 := by
  rcases s.resolve_cases registry with ⟨_, _, outcome⟩ | ⟨_, _, outcome⟩ |
    ⟨unbound, unasked, ⟨_, _, outcome⟩ | ⟨absent, outcome⟩⟩
  · rw [outcome]
    exact .refl registry s
  · rw [outcome]
    exact .refl registry s
  · rw [outcome]
    exact ⟨rfl, rfl, fun _ => unbound, .inl rfl⟩
  · rw [outcome]
    exact ⟨rfl, rfl, id, .inr ⟨⟨unbound, unasked⟩, absent, rfl⟩⟩

theorem resolvedBy_recalls (registry : Registry) (s : Series) :
    Recalls registry s (s.resolvedBy registry) := by
  rw [resolvedBy]
  split
  · exact .refl registry s
  · exact resolve_recalls registry s

theorem aggregate_recalls (s : Series) : Recalls .standard s s.aggregate.2 := by
  have resolved := resolve_recalls .standard s
  rcases s.aggregate_cases with ⟨_, outcome⟩ | ⟨_, _, _, outcome⟩ | ⟨_, _, _, reduced⟩
  · rw [outcome]
    exact ⟨rfl, rfl, id, .inl rfl⟩
  · rw [outcome]
    exact resolved
  · rcases reduced with ⟨_, _, outcome⟩ | ⟨_, _, outcome⟩
    · rw [outcome]
      exact resolved
    · rw [outcome]
      exact ⟨resolved.name, resolved.consolidation, resolved.unbound, resolved.unresolved⟩

theorem aggregated_recalls (s : Series) : Recalls .standard s s.aggregated.2 := by
  simp only [aggregated]
  split
  · exact .refl .standard s
  · exact aggregate_recalls s

/-- A change of the factor and the view alone. -/
theorem recalls_of_frame (registry : Registry)
    (framed : next = { s with grouping := next.grouping, view := next.view }) :
    Recalls registry s next := by
  rw [framed]
  exact ⟨rfl, rfl, id, .inl rfl⟩

end Series

namespace Store

variable {store : Store} {i : Nat} {s : Series}

theorem walk_recalls {registry : Registry} {change : Series → Series}
    (recalls : ∀ s, Series.Recalls registry s (change s)) (visited : List Nat) (store : Store) :
    List.Forall₂ (Series.Recalls registry) store (store.walk change visited) :=
  related_walk (List.forall₂_same.mpr fun s _ => .refl registry s)
    (fun _ next before => before.trans (recalls next)) visited

theorem resolve_recalls (registry : Registry) (batch : Batch) (store : Store) :
    List.Forall₂ (Series.Recalls registry) store (batch.resolve registry store).2 := by
  rw [Batch.resolve, resolveAll_walk]
  exact walk_recalls (Series.resolvedBy_recalls registry) _ store

theorem json_recalls (batch : Batch) (store : Store) :
    List.Forall₂ (Series.Recalls .standard) store (Json.encode batch store).2 := by
  obtain ⟨visited, _, walked, _⟩ := contents_walk (batch.present store) store
  change List.Forall₂ _ store (Json.contents (batch.present store) store).2
  rw [walked]
  apply walk_recalls
  intro s
  rw [Json.entry_snd]
  exact Series.aggregated_recalls s

theorem recalls_onSeries {registry : Registry} (found : store[i]? = some s) {j : Nat}
    {act : Series → Except Fault Answer × Series}
    (recalls : Series.Recalls registry s (act s).2) :
    ∃ next, (store.onSeries j act).2[i]? = some next ∧ Series.Recalls registry s next := by
  by_cases same : j = i
  · subst same
    have inside := (List.getElem?_eq_some_iff.mp found).1
    refine ⟨(act s).2, ?_, recalls⟩
    simp only [onSeries, found]
    exact List.getElem?_set_self inside
  · exact ⟨s, by rw [getElem?_onSeries (Ne.symm same), found], .refl registry s⟩

/-- A list of reports has this report, or none, wherever a position comes. -/
def Lists (positions : List Nat) (i : Nat) (report : Option UnknownReducer)
    (unknowns : List UnknownReducer) : Prop :=
  ∃ reports : Nat → Option UnknownReducer, reports i = report ∧
    unknowns = positions.filterMap reports

theorem onSeries_of_stays (found : store[i]? = some s) {outcome : Except Fault Answer}
    {act : Series → Except Fault Answer × Series} (stays : act s = (outcome, s)) :
    store.onSeries i act = (outcome, store) := by
  obtain ⟨inside, rfl⟩ := List.getElem?_eq_some_iff.mp found
  simp only [onSeries, found, stays, List.set_getElem_self]

theorem reportBy_of_failure (unbound : s.reducer = none) (failed : s.unresolved.isSome)
    (registry : Registry) :
    s.reportBy registry = if s.grouping ≤ 1 then none else some ⟨s.name, s.consolidation⟩ := by
  rw [Series.reportBy, Series.resolve_of_failure unbound failed]

theorem omission_of_failure (unbound : s.reducer = none) (failed : s.unresolved.isSome) :
    Json.omission s =
      if s.grouping ≤ 1 ∨ s.view.isSome then none else some ⟨s.name, s.consolidation⟩ := by
  have honest (unknown : UnknownReducer) : ¬ s.Feigns unknown := by
    simp [Series.Feigns, unbound]
  apply Option.ext
  intro unknown
  rw [Json.omission_eq_some_iff, Series.aggregated_unknown_iff, reportBy_of_failure unbound failed]
  by_cases single : s.grouping ≤ 1
  · simp [single, honest]
  · cases s.view <;> simp [single, honest]

section

variable [Runtime]

theorem write_recalls (format : Format) (config : Config) (batch : Batch)
    (store : Store) :
    List.Forall₂ (Series.Recalls .standard) store (format.write config batch store).2 := by
  cases format with
  | json => exact json_recalls batch store
  | csv | pickle | protobuf | raw => exact List.forall₂_same.mpr fun s _ => .refl .standard s

theorem encode_recalls (batch : Batch) (name : Text) (budget : Option Int)
    (config : Config) (found : store[i]? = some s) :
    ∃ next, (batch.encode name budget config store).2[i]? = some next ∧
      Series.Recalls .standard s next := by
  obtain ⟨r, planned, framed⟩ := found_after (prepare_frame budget batch store) found
  have first := Series.recalls_of_frame .standard framed
  rcases batch.encode_cases name budget config store with
    ⟨_, answer⟩ | ⟨fault, next, failed, answer⟩ | ⟨format, next, _, done, answer⟩
  · rw [answer]
    exact ⟨s, found, .refl .standard s⟩
  · rw [failed] at planned
    rw [answer]
    exact ⟨r, planned, first⟩
  · rw [done] at planned
    rw [answer]
    obtain ⟨bound, resolved, second⟩ := found_after (resolve_recalls .standard batch next) planned
    obtain ⟨written, final, third⟩ := found_after (write_recalls format config batch _) resolved
    exact ⟨written, final, (first.trans second).trans third⟩

/-- A call leaves of every series what look-ups in its registry may leave. -/
theorem perform_recalls {operation : Operation} (call : operation.IsCall)
    (found : store[i]? = some s) :
    ∃ next, (store.perform operation).2[i]? = some next ∧
      Series.Recalls operation.registry s next := by
  have inside := (List.getElem?_eq_some_iff.mp found).1
  cases operation with
  | make _ _ _ _ _ | makeTagged _ _ _ _ _ | insert _ =>
    exact ⟨s, (getElem?_add inside _).trans found, .refl _ s⟩
  | edit j change => exact call.elim
  | regroup j count =>
    apply recalls_onSeries found
    cases outcome : s.regroup count with
    | error fault => exact .refl _ s
    | ok next =>
      obtain ⟨_, _, rfl⟩ := Series.regroup_eq_ok_iff.mp outcome
      exact ⟨rfl, rfl, id, .inl rfl⟩
  | resolve j registry => exact recalls_onSeries found (Series.resolve_recalls registry s)
  | aggregate j => exact recalls_onSeries found s.aggregate_recalls
  | aggregated j => exact recalls_onSeries found s.aggregated_recalls
  | aggregatedTimestamps j =>
    apply recalls_onSeries found
    simp only [Series.aggregatedTimestamps_snd]
    exact s.aggregated_recalls
  | aggregatedStep j | timestamps j | check j bounds =>
    exact recalls_onSeries found (.refl _ s)
  | consolidate batch budget =>
    obtain ⟨next, later, framed⟩ := found_after (consolidate_frame budget batch store) found
    exact ⟨next, later, Series.recalls_of_frame _ framed⟩
  | resolveBatch batch registry => exact found_after (resolve_recalls registry batch store) found
  | json batch => exact found_after (json_recalls batch store) found
  | csv | pickle | protobuf | raw => exact ⟨s, found, .refl _ s⟩
  | encode batch name budget config => exact encode_recalls batch name budget config found

/-- A series was there before an operation, or the operation has made it. -/
theorem found_or_fresh {operation : Operation} (fresh : operation.AddsFresh)
    (found : (store.perform operation).2[i]? = some s) :
    (∃ r, store[i]? = some r) ∨ s.Fresh := by
  rcases fresh.cases with call | ⟨j, change, rfl⟩
  · obtain ⟨next, added, performed, evolves, new⟩ := perform_grows call store
    rw [performed] at found
    rcases Nat.lt_or_ge i next.length with old | beyond
    · rw [List.getElem?_append_left old] at found
      obtain ⟨r, earlier, _⟩ := found_before evolves found
      exact .inl ⟨r, earlier⟩
    · rw [List.getElem?_append_right beyond] at found
      exact .inr (new s (List.mem_of_getElem? found))
  · rw [perform_edit, List.getElem?_modify, Option.map_eq_map, Option.map_eq_some_iff] at found
    obtain ⟨r, earlier, _⟩ := found
    exact .inl ⟨r, earlier⟩

/-- An edit keeps what is remembered, and the names unless it is an edit of one. -/
theorem edit_remembers {r : Series} {j : Nat} {change : Series.Edit}
    (earlier : store[i]? = some r)
    (found : (store.perform (.edit j change)).2[i]? = some s) :
    s.unresolved = r.unresolved ∧
      (¬ (Operation.edit j change).Renames i → s.name = r.name ∧
        s.consolidation = r.consolidation) := by
  rw [perform_edit, List.getElem?_modify, earlier] at found
  by_cases same : j = i
  · simp only [same, if_true, Option.map_eq_map, Option.map_some, Option.some.injEq] at found
    subst found
    cases change <;> simp [Series.edit, Operation.Renames, same]
  · simp only [same, if_false, Option.map_eq_map, Option.map_some, Option.some.injEq] at found
    subst found
    simp

theorem run_append_singleton (store : Store) (operations : List Operation)
    (operation : Operation) :
    store.run (operations ++ [operation]) = ((store.run operations).perform operation).2 :=
  List.foldl_append

/-- After a run, one operation looks up the reducer of the series at a position, finds none, and
records the failure under the names that the series has. -/
structure Records (before : List Operation) (operation : Operation) (i : Nat)
    (r next : Series) : Prop where
  found : (run [] before)[i]? = some r
  waits : r.IsOpen
  absent : operation.registry.find? r.lookupName = none
  later : (run [] (before ++ [operation]))[i]? = some next
  recorded : next.unresolved = some ⟨r.name, r.consolidation⟩

/-- A failure was recorded in the course of a run. It is under the names that the series has if no
later operation edits one of them. -/
def RecordedIn (operations : List Operation) (i : Nat) (s : Series)
    (unknown : UnknownReducer) : Prop :=
  ∃ before operation after r next, operations = before ++ operation :: after ∧
    Records before operation i r next ∧ unknown = ⟨r.name, r.consolidation⟩ ∧
    ((∀ other ∈ after, ¬ other.Renames i) → unknown = ⟨s.name, s.consolidation⟩)

/-- An operation keeps what was recorded before it. -/
theorem RecordedIn.append {rest : List Operation} {operation : Operation} {r : Series}
    {unknown : UnknownReducer} (recorded : RecordedIn rest i r unknown)
    (names : ¬ operation.Renames i → s.name = r.name ∧ s.consolidation = r.consolidation) :
    RecordedIn (rest ++ [operation]) i s unknown := by
  obtain ⟨before, other, after, q, next, whole, records, same, named⟩ := recorded
  refine ⟨before, other, after ++ [operation], q, next, by simp [whole], records, same, ?_⟩
  intro stays
  obtain ⟨name, consolidation⟩ := names (stays operation (by simp))
  rw [name, consolidation]
  exact named fun other member => stays other (List.mem_append_left _ member)

/-- What a series remembers was recorded by one operation. -/
theorem recorded_of_run {operations : List Operation}
    (fresh : ∀ operation ∈ operations, operation.AddsFresh) {unknown : UnknownReducer}
    (found : (run [] operations)[i]? = some s) (failed : s.unresolved = some unknown) :
    RecordedIn operations i s unknown := by
  induction operations using List.reverseRecOn generalizing s with
  | nil => simp [run] at found
  | append_singleton rest operation ih =>
    have before : ∀ other ∈ rest, other.AddsFresh :=
      fun other member => fresh other (List.mem_append_left _ member)
    have last := fresh operation (by simp)
    have performed := found
    rw [run_append_singleton] at performed
    rcases found_or_fresh last performed with ⟨r, earlier⟩ | new
    · rcases last.cases with call | ⟨j, change, rfl⟩
      · obtain ⟨next, later, recalls⟩ := perform_recalls call earlier
        rw [performed] at later
        cases later
        rcases recalls.unresolved with kept | ⟨waits, absent, records⟩
        · exact (ih before earlier (kept ▸ failed)).append
            fun _ => ⟨recalls.name, recalls.consolidation⟩
        · rw [failed] at records
          cases records
          exact ⟨rest, operation, [], r, s, rfl, ⟨earlier, waits, absent, found, failed⟩, rfl,
            fun _ => by rw [recalls.name, recalls.consolidation]⟩
      · obtain ⟨kept, names⟩ := edit_remembers earlier performed
        exact (ih before earlier (kept ▸ failed)).append names
    · rw [new.unresolved] at failed
      cases failed

/-- Every attempt to use the reducer of the series at a position gives one and the same report of
it, makes no look-up, and leaves the series. -/
structure ReportsAs (store : Store) (i : Nat) (s : Series) (unknown : UnknownReducer) :
    Prop where
  resolve : ∀ registry,
    store.perform (.resolve i registry) = (.ok (.resolution (.error unknown) 0), store)
  aggregate : 1 < s.grouping →
    store.perform (.aggregate i) = (.error (.unknownReducer unknown), store)
  aggregated : 1 < s.grouping → s.view = none →
    store.perform (.aggregated i) = (.error (.unknownReducer unknown), store)
  aggregatedTimestamps : 1 < s.grouping → s.view = none →
    store.perform (.aggregatedTimestamps i) = (.error (.unknownReducer unknown), store)
  resolveBatch : ∀ batch registry unknowns,
    (store.perform (.resolveBatch batch registry)).1 = .ok (.reports unknowns) →
      Lists (batch.present store) i (if s.grouping ≤ 1 then none else some unknown) unknowns
  json : ∀ batch document unknowns,
    (store.perform (.json batch)).1 = .ok (.document document unknowns) →
      Lists (batch.present store) i
        (if s.grouping ≤ 1 ∨ s.view.isSome then none else some unknown) unknowns
  /-- The factor that counts is the one that the plan of the request has left. -/
  encode : ∀ (batch : Batch) name budget config document unknowns r,
    (store.perform (.encode batch name budget config)).1 = .ok (.document document unknowns) →
      (batch.prepare budget store).2[i]? = some r →
        Lists (batch.present store) i (if r.grouping ≤ 1 then none else some unknown) unknowns

theorem lists_of_json (found : store[i]? = some s) (unbound : s.reducer = none)
    (failed : s.unresolved.isSome) {batch : Batch} {document : Document}
    {unknowns : List UnknownReducer}
    (answer : (store.perform (.json batch)).1 = .ok (.document document unknowns)) :
    Lists (batch.present store) i
      (if s.grouping ≤ 1 ∨ s.view.isSome then none else some ⟨s.name, s.consolidation⟩)
      unknowns := by
  rcases read : Json.contents (batch.present store) store with ⟨fault | contents, after⟩
  · simp [perform, Json.encode, read, Except.map] at answer
  · simp only [perform, Json.encode, read, Except.map, Except.ok.injEq,
      Answer.document.injEq] at answer
    obtain ⟨_, rfl⟩ := answer
    refine ⟨_, ?_, Json.unknowns_of_contents read⟩
    rw [found]
    exact omission_of_failure unbound failed

theorem reports_of_encode {batch : Batch} {name : Text} {budget : Option Int}
    {config : Config} {document : Document} {unknowns : List UnknownReducer}
    (answer : (store.perform (.encode batch name budget config)).1 =
      .ok (.document document unknowns)) :
    unknowns = (batch.resolve .standard (batch.prepare budget store).2).1 := by
  rcases batch.encode_cases name budget config store with
    ⟨_, outcome⟩ | ⟨fault, next, _, outcome⟩ | ⟨format, next, _, done, outcome⟩
  · simp [perform, outcome, Except.map] at answer
  · simp [perform, outcome, Except.map] at answer
  · rw [done]
    simp only [perform, outcome] at answer
    rcases written : (format.write config batch (batch.resolve .standard next).2).1 with _ | _
    · simp [written, Except.map] at answer
    · simp only [written, Except.map, Except.ok.injEq, Answer.document.injEq] at answer
      exact answer.2.symm

/-- Planning leaves what is known of the reducer and the names. -/
theorem lists_of_encode (found : store[i]? = some s) (unbound : s.reducer = none)
    (failed : s.unresolved.isSome) {batch : Batch} {name : Text} {budget : Option Int}
    {config : Config} {document : Document} {unknowns : List UnknownReducer} {r : Series}
    (answer : (store.perform (.encode batch name budget config)).1 =
      .ok (.document document unknowns))
    (planned : (batch.prepare budget store).2[i]? = some r) :
    Lists (batch.present store) i
      (if r.grouping ≤ 1 then none else some ⟨s.name, s.consolidation⟩) unknowns := by
  obtain ⟨r', planned', framed⟩ := found_after (prepare_frame budget batch store) found
  rw [planned] at planned'
  cases planned'
  have length := (prepare_evolves budget batch store).length_eq
  rw [reports_of_encode answer, Batch.resolve, Batch.present_eq length.symm]
  refine ⟨_, ?_, resolveAll_reports .standard (batch.present store) _⟩
  have names : r.name = s.name ∧ r.consolidation = s.consolidation := by
    rw [framed]
    exact ⟨rfl, rfl⟩
  have stays : r.reducer = none ∧ r.unresolved.isSome := by
    rw [framed]
    exact ⟨unbound, failed⟩
  rw [planned, ← names.1, ← names.2]
  exact reportBy_of_failure stays.1 stays.2 .standard

theorem reportsAs_of_failure (found : store[i]? = some s) (unbound : s.reducer = none)
    (failed : s.unresolved.isSome) : store.ReportsAs i s ⟨s.name, s.consolidation⟩ := by
  have resolved := Series.resolve_of_failure unbound failed
  have aggregate (grouped : 1 < s.grouping) :
      s.aggregate = (.error (.unknownReducer ⟨s.name, s.consolidation⟩), s) := by
    rw [Series.aggregate, if_neg (by omega), resolved]
  have aggregated (grouped : 1 < s.grouping) (none_kept : s.view = none) :
      s.aggregated = (.error (.unknownReducer ⟨s.name, s.consolidation⟩), s) := by
    rw [Series.aggregated, none_kept]
    exact aggregate grouped
  constructor
  case resolve =>
    intro registry
    rw [perform]
    apply onSeries_of_stays found
    simp [resolved]
  case aggregate =>
    intro grouped
    rw [perform]
    apply onSeries_of_stays found
    simp [aggregate grouped, Except.map]
  case aggregated =>
    intro grouped none_kept
    rw [perform]
    apply onSeries_of_stays found
    simp [aggregated grouped none_kept, Except.map]
  case aggregatedTimestamps =>
    intro grouped none_kept
    rw [perform]
    apply onSeries_of_stays found
    simp [Series.aggregatedTimestamps, aggregated grouped none_kept, Except.map]
  case resolveBatch =>
    intro batch registry unknowns answer
    cases answer
    refine ⟨_, ?_, resolveAll_reports registry (batch.present store) store⟩
    rw [found]
    exact reportBy_of_failure unbound failed registry
  case json => exact fun _ _ _ answer => lists_of_json found unbound failed answer
  case encode =>
    exact fun _ _ _ _ _ _ _ answer planned => lists_of_encode found unbound failed answer planned

/-- Every attempt to use the reducer of a series that remembers a failure is reported, alike, under
the names that the series has; nothing is looked up again. What is remembered is the one look-up
that failed, under the names of that time. The two agree as long as no name is edited. -/
theorem report_of_run {operations : List Operation}
    (fresh : ∀ operation ∈ operations, operation.AddsFresh) {unknown : UnknownReducer}
    (found : (run [] operations)[i]? = some s) (failed : s.unresolved = some unknown)
    (unbound : s.reducer = none) :
    (run [] operations).ReportsAs i s ⟨s.name, s.consolidation⟩ ∧
      RecordedIn operations i s unknown :=
  ⟨reportsAs_of_failure found unbound (Option.isSome_of_eq_some failed),
    recorded_of_run fresh found failed⟩

end

/-- A reducer is given after the failure and taken away again. -/
theorem report_of_run_unbound :
    ∃ (operations : List Operation) (s : Series),
      operations = [.makeTagged "a" [.ofNat 1, .missing, .ofNat 3] 10 0 [],
        .edit 0 (.consolidation "none"), .regroup 0 2, .aggregated 0,
        .edit 0 (.reducer (some ⟨"sum", fun group => .ok (Statistic.sum group)⟩)),
        .edit 0 (.reducer none)] ∧
      (∀ operation ∈ operations, operation.AddsFresh) ∧
      (run [] operations)[0]? = some s ∧ s.unresolved = some ⟨"a", "none"⟩ ∧ s.reducer = none ∧
      (run [] operations).ReportsAs 0 s ⟨"a", "none"⟩ := by
  let operations : List Operation := [.makeTagged "a" [.ofNat 1, .missing, .ofNat 3] 10 0 [],
    .edit 0 (.consolidation "none"), .regroup 0 2, .aggregated 0,
    .edit 0 (.reducer (some ⟨"sum", fun group => .ok (Statistic.sum group)⟩)),
    .edit 0 (.reducer none)]
  have fresh : ∀ operation ∈ operations, operation.AddsFresh := by
    simp [operations, Operation.AddsFresh]
  have state : ((run [] operations)[0]?).map
      (fun s => (s.unresolved, s.reducer.isSome, s.name, s.consolidation)) =
        some (some ⟨"a", "none"⟩, false, .ofString "a", .ofString "none") := by
    decide +kernel
  obtain ⟨s, found, known⟩ := Option.map_eq_some_iff.mp state
  simp only [Prod.mk.injEq, Option.isSome_eq_false_iff, Option.isNone_iff_eq_none] at known
  obtain ⟨failed, unbound, name, consolidation⟩ := known
  obtain ⟨reported, _⟩ := report_of_run fresh found failed unbound
  rw [name, consolidation] at reported
  exact ⟨operations, s, rfl, fresh, found, failed, unbound, reported⟩

/-- A failure is reported under a name that was never looked up: the series has taken the name of a
function that there is. -/
theorem report_not_remembered :
    ∃ (operations : List Operation) (s : Series),
      operations = [.makeTagged "a" [] 1 0 [], .edit 0 (.consolidation "none"),
        .resolve 0 .standard, .edit 0 (.consolidation "sum")] ∧
      (∀ operation ∈ operations, operation.AddsFresh) ∧
      (run [] operations)[0]? = some s ∧ s.reducer = none ∧
      s.unresolved = some ⟨"a", "none"⟩ ∧
      (Registry.standard.find? "sum").isSome ∧
      (run [] operations).perform (.resolve 0 .standard) =
        (.ok (.resolution (.error ⟨"a", "sum"⟩) 0), run [] operations) := by
  let operations : List Operation := [.makeTagged "a" [] 1 0 [], .edit 0 (.consolidation "none"),
    .resolve 0 .standard, .edit 0 (.consolidation "sum")]
  have fresh : ∀ operation ∈ operations, operation.AddsFresh := by
    simp [operations, Operation.AddsFresh]
  have state : ((run [] operations)[0]?).map
      (fun s => (s.unresolved, s.reducer.isSome, s.name, s.consolidation)) =
        some (some ⟨"a", "none"⟩, false, .ofString "a", .ofString "sum") := by
    decide +kernel
  obtain ⟨s, found, known⟩ := Option.map_eq_some_iff.mp state
  simp only [Prod.mk.injEq, Option.isSome_eq_false_iff, Option.isNone_iff_eq_none] at known
  obtain ⟨failed, unbound, name, consolidation⟩ := known
  have reported := (reportsAs_of_failure found unbound (Option.isSome_of_eq_some failed)).resolve
  rw [name, consolidation] at reported
  exact ⟨operations, s, rfl, fresh, found, unbound, failed, by decide +kernel, reported .standard⟩

end Store

end Rollup
