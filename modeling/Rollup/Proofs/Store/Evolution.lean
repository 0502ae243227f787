import Rollup.Operation
import Rollup.Proofs.Store.Walk

/-!
What operations do to a store: every series goes on by steps of its own, and series are only ever
added. Main statements: each call does so, and what fresh series have and steps preserve holds of
every series of every run of calls.
-/

namespace Rollup

/-- A series as made, before any call on it. -/
structure Series.Fresh (s : Series) : Prop where
  grouping : s.grouping = 0
  view : s.view = none
  unresolved : s.unresolved = none
  lookups : s.lookups = 0

/-- The operations that change a series by calls only: no plain edits, and added series are
fresh. -/
def Operation.IsCall : Operation → Prop
  | .edit _ _ => False
  | .insert s => s.Fresh
  | _ => True

/-- Calls, and plain edits of all but the reducer and the grouping factor. -/
def Operation.KeepsReducer : Operation → Prop
  | .edit _ (.reducer _) => False
  | .edit _ (.grouping _) => False
  | .edit _ _ => True
  | operation => operation.IsCall

theorem Operation.KeepsReducer.cases {operation : Operation} (kept : operation.KeepsReducer) :
    operation.IsCall ∨ ∃ i change, operation = .edit i change := by
  cases operation with
  | edit i change => exact .inr ⟨i, change, rfl⟩
  | _ => exact .inl kept

namespace Batch

variable [Runtime]

/-- Plans a batch if there is a budget for it. -/
def prepare (budget : Option Int) (batch : Batch) (store : Store) : Except Fault Unit × Store :=
  match budget with
  | none => (.ok (), store)
  | some budget => batch.consolidate budget store

theorem encode_eq {name : Text} {format : Format} (named : Format.ofName? name = some format)
    (budget : Option Int) (config : Config) (batch : Batch) (store : Store) :
    batch.encode name budget config store =
      match batch.prepare budget store with
      | (.error fault, next) => (.error fault, next)
      | (.ok (), next) =>
        ((format.write config batch (batch.resolve .standard next).2).1.map
            fun document => (document, (batch.resolve .standard next).1),
          (format.write config batch (batch.resolve .standard next).2).2) := by
  simp only [encode, named]
  cases budget <;> rfl

/-- A request fails at the name of its format or in the plan, or resolves the planned batch and
writes it. -/
theorem encode_cases (name : Text) (budget : Option Int) (config : Config) (batch : Batch)
    (store : Store) :
    (Format.ofName? name = none ∧
      batch.encode name budget config store = (.error (.unknownFormat name), store)) ∨
    (∃ fault next, batch.prepare budget store = (.error fault, next) ∧
      batch.encode name budget config store = (.error fault, next)) ∨
    ∃ format next, Format.ofName? name = some format ∧ batch.prepare budget store = (.ok (), next) ∧
      batch.encode name budget config store =
        ((format.write config batch (batch.resolve .standard next).2).1.map
            fun document => (document, (batch.resolve .standard next).1),
          (format.write config batch (batch.resolve .standard next).2).2) := by
  cases named : Format.ofName? name with
  | none => exact .inl ⟨rfl, by simp [encode, named]⟩
  | some format =>
    right
    rcases prepared : batch.prepare budget store with ⟨fault | ⟨⟩, next⟩
    · exact .inl ⟨fault, next, rfl, by rw [encode_eq named, prepared]⟩
    · exact .inr ⟨format, next, rfl, rfl, by rw [encode_eq named, prepared]⟩

end Batch

namespace Store

variable {store before after last : Store}

section Related

variable {related : Series → Series → Prop} {i : Nat}

theorem found_before (pairs : List.Forall₂ related before after) {next : Series}
    (found : after[i]? = some next) : ∃ s, before[i]? = some s ∧ related s next := by
  induction pairs generalizing i with
  | nil => simp at found
  | @cons s _ _ _ pair _ ih =>
    cases i with
    | zero =>
      cases found
      exact ⟨s, rfl, pair⟩
    | succ i =>
      obtain ⟨s, earlier, pair⟩ := ih (by simpa using found)
      exact ⟨s, by simpa using earlier, pair⟩

theorem found_after (pairs : List.Forall₂ related before after) {s : Series}
    (found : before[i]? = some s) : ∃ next, after[i]? = some next ∧ related s next :=
  found_before pairs.flip found

theorem absent_before (pairs : List.Forall₂ related before after) (absent : after[i]? = none) :
    before[i]? = none := by
  rw [List.getElem?_eq_none_iff] at absent ⊢
  rw [pairs.length_eq]
  exact absent

theorem related_set (pairs : List.Forall₂ related before after) {s next : Series}
    (found : before[i]? = some s) (pair : related s next) :
    List.Forall₂ related before (after.set i next) := by
  induction pairs generalizing i with
  | nil => exact .nil
  | cons first rest ih =>
    cases i with
    | zero =>
      cases found
      exact .cons pair rest
    | succ i => exact .cons first (ih (by simpa using found))

theorem related_of_getElem? (length : before.length = after.length)
    (each : ∀ (i : Nat) s next, before[i]? = some s → after[i]? = some next → related s next) :
    List.Forall₂ related before after := by
  apply List.forall₂_iff_get.mpr ⟨length, ?_⟩
  intro i first second
  exact each i _ _ (by simp) (by simp)

theorem related_sets (pairs : List.Forall₂ related before after) {s next : Series}
    (pair : related s next) : List.Forall₂ related (before.set i s) (after.set i next) := by
  induction pairs generalizing i with
  | nil => exact .nil
  | cons first rest ih =>
    cases i with
    | zero => exact .cons pair rest
    | succ i => exact .cons first ih

end Related

def Evolves : Store → Store → Prop := List.Forall₂ Series.Steps

theorem Evolves.refl (store : Store) : Evolves store store := by
  induction store with
  | nil => exact .nil
  | cons s rest ih => exact .cons .refl ih

theorem Evolves.trans (first : Evolves before after) (second : Evolves after last) :
    Evolves before last := by
  induction first generalizing last with
  | nil => exact second
  | cons step _ ih =>
    cases second with
    | cons next rest => exact .cons (step.trans next) (ih rest)

theorem evolves_set {i : Nat} {s next : Series} (found : store[i]? = some s)
    (steps : Series.Steps s next) : Evolves store (store.set i next) :=
  related_set (Evolves.refl store) found steps

theorem walk_evolves {change : Series → Series} (steps : ∀ s, Series.Steps s (change s))
    (visited : List Nat) (store : Store) : Evolves store (store.walk change visited) :=
  related_walk (Evolves.refl store) (fun _ next before => before.trans (steps next)) visited

theorem resolveAll_evolves (registry : Registry) (positions : List Nat) (store : Store) :
    Evolves store (Batch.resolveAll registry positions store).2 := by
  rw [resolveAll_walk]
  exact walk_evolves (Series.resolvedBy_steps registry) positions store

theorem contents_evolves (positions : List Nat) (store : Store) :
    Evolves store (Json.contents positions store).2 := by
  obtain ⟨visited, _, walked, _⟩ := contents_walk positions store
  rw [walked]
  exact walk_evolves Series.entry_steps visited store

theorem json_evolves (batch : Batch) (store : Store) :
    Evolves store (Json.encode batch store).2 :=
  contents_evolves _ store

theorem onSeries_evolves (store : Store) (i : Nat)
    (act : Series → Except Fault Answer × Series) (steps : ∀ s, Series.Steps s (act s).2) :
    Evolves store (store.onSeries i act).2 := by
  simp only [onSeries]
  split
  · exact .refl store
  · next s found => exact evolves_set found (steps s)

/-- The series go on, and fresh ones may follow them. -/
def Grows (before after : Store) : Prop :=
  ∃ next added, after = next ++ added ∧ Evolves before next ∧ ∀ s ∈ added, s.Fresh

theorem Evolves.grows (evolves : Evolves before after) : Grows before after :=
  ⟨after, [], by simp, evolves, by simp⟩

/-- A series keeps its place. -/
theorem Grows.found {i : Nat} {s : Series} (grows : Grows before after)
    (found : before[i]? = some s) : ∃ next, after[i]? = some next ∧ Series.Steps s next := by
  obtain ⟨next, added, rfl, evolves, _⟩ := grows
  obtain ⟨r, later, steps⟩ := found_after evolves found
  have inside := (List.getElem?_eq_some_iff.mp later).1
  exact ⟨r, by rw [List.getElem?_append_left inside, later], steps⟩

theorem add_grows (store : Store) {made : Except Fault Series}
    (fresh : ∀ s, made = .ok s → s.Fresh) : Grows store (store.add made).2 := by
  cases made with
  | error fault => exact (Evolves.refl store).grows
  | ok s => exact ⟨store, [s], rfl, .refl store, by simpa using fresh s rfl⟩

variable {invariant : Series → Prop}

theorem invariant_steps {s next : Series}
    (preserved : ∀ s next, Series.Step s next → invariant s → invariant next)
    (steps : Series.Steps s next) (holds : invariant s) : invariant next := by
  induction steps with
  | refl => exact holds
  | tail _ step ih => exact preserved _ _ step ih

theorem invariant_evolves
    (preserved : ∀ s next, Series.Step s next → invariant s → invariant next)
    (evolves : Evolves before after) (holds : ∀ s ∈ before, invariant s) :
    ∀ s ∈ after, invariant s := by
  induction evolves with
  | nil => exact holds
  | cons steps _ ih =>
    intro s member
    rcases List.mem_cons.mp member with rfl | later
    · exact invariant_steps preserved steps (holds _ (by simp))
    · apply ih _ s later
      intro s inside
      exact holds s (List.mem_cons_of_mem _ inside)

variable [Runtime]

theorem planAll_evolves (span budget : Int) (positions : List Nat) (store : Store) :
    Evolves store (Batch.planAll span budget positions store).2 := by
  obtain ⟨visited, _, walked, _⟩ := planAll_walk span budget positions store
  rw [walked]
  exact walk_evolves (Series.planned_steps span budget) visited store

theorem consolidate_evolves (budget : Int) (batch : Batch) (store : Store) :
    Evolves store (batch.consolidate budget store).2 := by
  simp only [Batch.consolidate]
  split
  · exact .refl store
  · split
    · exact .refl store
    · exact planAll_evolves _ _ _ _

/-- Planning a batch touches the factors and the views of its series, also if it fails. -/
theorem consolidate_frame (budget : Int) (batch : Batch) (store : Store) :
    List.Forall₂ (fun s next => next = { s with grouping := next.grouping, view := next.view })
      store (batch.consolidate budget store).2 := by
  have untouched : List.Forall₂
      (fun s next : Series => next = { s with grouping := next.grouping, view := next.view })
      store store :=
    List.forall₂_same.mpr fun _ _ => rfl
  simp only [Batch.consolidate]
  split
  · exact untouched
  · split
    · exact untouched
    · obtain ⟨visited, _, walked, _⟩ := planAll_walk
        ((Batch.timeRange (batch.series store)).2 - (Batch.timeRange (batch.series store)).1) budget
        (batch.present store) store
      rw [walked]
      apply related_walk untouched
      intro s next framed
      rw [Series.planned_frame, framed]

theorem prepare_frame (budget : Option Int) (batch : Batch) (store : Store) :
    List.Forall₂ (fun s next => next = { s with grouping := next.grouping, view := next.view })
      store (batch.prepare budget store).2 := by
  cases budget with
  | none => exact List.forall₂_same.mpr fun _ _ => rfl
  | some budget => exact consolidate_frame budget batch store

theorem write_evolves (format : Format) (config : Config) (batch : Batch) (store : Store) :
    Evolves store (format.write config batch store).2 := by
  cases format with
  | json => exact json_evolves batch store
  | csv | pickle | protobuf | raw => exact .refl store

theorem prepare_evolves (budget : Option Int) (batch : Batch) (store : Store) :
    Evolves store (batch.prepare budget store).2 := by
  cases budget with
  | none => exact .refl store
  | some budget => exact consolidate_evolves budget batch store

theorem encode_evolves (name : Text) (budget : Option Int) (config : Config) (batch : Batch)
    (store : Store) : Evolves store (batch.encode name budget config store).2 := by
  have planned := prepare_evolves budget batch store
  rcases batch.encode_cases name budget config store with
    ⟨_, answer⟩ | ⟨fault, next, failed, answer⟩ | ⟨format, next, _, prepared, answer⟩
  · rw [answer]
    exact .refl store
  · rw [failed] at planned
    rw [answer]
    exact planned
  · rw [prepared] at planned
    rw [answer]
    exact planned.trans ((resolveAll_evolves _ _ _).trans (write_evolves format config batch _))

theorem makeTagged_fresh {name : Text} {values : List Sample} {step start : Int} {tags : Tags}
    {s : Series} (made : Series.makeTagged name values step start tags = .ok s) : s.Fresh := by
  simp only [Series.makeTagged, bind, Except.bind] at made
  split at made
  · cases made
  · split at made
    · cases made
    · cases made
      exact ⟨rfl, rfl, rfl, rfl⟩

theorem makeExtracting_fresh {extract : Text → Mapping} {name : Text} {values : List Sample}
    {step start : Int} {s : Series}
    (made : Series.makeExtracting extract name values step start = .ok s) : s.Fresh := by
  obtain ⟨tagged, first, checked⟩ := Fault.bind_eq_ok_iff.mp made
  obtain ⟨_, _, same⟩ := Fault.bind_eq_ok_iff.mp checked
  cases same
  exact makeTagged_fresh first

theorem perform_grows {operation : Operation} (call : operation.IsCall) (store : Store) :
    Grows store (store.perform operation).2 := by
  cases operation with
  | make extract name values step start => exact add_grows store fun _ => makeExtracting_fresh
  | makeTagged name values step start tags => exact add_grows store fun _ => makeTagged_fresh
  | insert s =>
    apply add_grows store
    intro added same
    cases same
    exact call
  | edit i change => exact call.elim
  | regroup i count =>
    apply Evolves.grows
    apply onSeries_evolves store i
    intro s
    cases outcome : s.regroup count with
    | error fault => simpa [outcome] using Relation.ReflTransGen.refl
    | ok next => simpa [outcome] using Series.regroup_steps outcome
  | resolve i registry =>
    exact (onSeries_evolves store i _ fun s => Series.resolve_steps registry s).grows
  | aggregate i => exact (onSeries_evolves store i _ fun s => Series.aggregate_steps s).grows
  | aggregated i => exact (onSeries_evolves store i _ fun s => Series.aggregated_steps s).grows
  | aggregatedTimestamps i =>
    apply Evolves.grows
    apply onSeries_evolves store i
    intro s
    have steps := Series.aggregated_steps s
    rwa [← Series.aggregatedTimestamps_snd] at steps
  | aggregatedStep i | timestamps i | check i bounds =>
    exact (onSeries_evolves store i _ fun s => .refl).grows
  | consolidate batch budget => exact (consolidate_evolves budget batch store).grows
  | resolveBatch batch registry => exact (resolveAll_evolves registry _ store).grows
  | json batch => exact (json_evolves batch store).grows
  | csv batch zone => exact (Evolves.refl store).grows
  | pickle batch protocol => exact (Evolves.refl store).grows
  | protobuf batch => exact (Evolves.refl store).grows
  | raw batch => exact (Evolves.refl store).grows
  | encode batch name budget config => exact (encode_evolves name budget config batch store).grows

theorem invariant_perform (fresh : ∀ s : Series, s.Fresh → invariant s)
    (preserved : ∀ s next, Series.Step s next → invariant s → invariant next)
    {operation : Operation} (call : operation.IsCall) (holds : ∀ s ∈ store, invariant s) :
    ∀ s ∈ (store.perform operation).2, invariant s := by
  obtain ⟨next, added, performed, evolves, new⟩ := perform_grows call store
  rw [performed]
  intro s member
  rcases List.mem_append.mp member with old | added
  · exact invariant_evolves preserved evolves holds s old
  · exact fresh s (new s added)

/-- What fresh series have and every step preserves, every series has after any run of calls. -/
theorem invariant_run (fresh : ∀ s : Series, s.Fresh → invariant s)
    (preserved : ∀ s next, Series.Step s next → invariant s → invariant next)
    {operations : List Operation} (calls : ∀ operation ∈ operations, operation.IsCall)
    (holds : ∀ s ∈ store, invariant s) : ∀ s ∈ store.run operations, invariant s := by
  induction operations generalizing store with
  | nil => exact holds
  | cons operation rest ih =>
    apply ih
    · intro next member
      exact calls next (List.mem_cons_of_mem _ member)
    · exact invariant_perform fresh preserved (calls operation (by simp)) holds

theorem perform_edit (store : Store) (i : Nat) (change : Series.Edit) :
    (store.perform (.edit i change)).2 = store.modify i fun s => s.edit change := by
  rw [List.modify_eq_set_getElem?]
  simp only [perform, onSeries]
  cases store[i]? <;> rfl

/-- With edits between the calls, what an edit preserves too. -/
theorem invariant_kept_run (fresh : ∀ s : Series, s.Fresh → invariant s)
    (preserved : ∀ s next, Series.Step s next → invariant s → invariant next)
    (edited : ∀ s i change, (Operation.edit i change).KeepsReducer → invariant s →
      invariant (s.edit change))
    {operations : List Operation} (kept : ∀ operation ∈ operations, operation.KeepsReducer)
    (holds : ∀ s ∈ store, invariant s) : ∀ s ∈ store.run operations, invariant s := by
  induction operations generalizing store with
  | nil => exact holds
  | cons operation rest ih =>
    apply ih fun next member => kept next (List.mem_cons_of_mem _ member)
    change ∀ s ∈ (store.perform operation).2, invariant s
    have first := kept operation (by simp)
    rcases first.cases with call | ⟨i, change, rfl⟩
    · exact invariant_perform fresh preserved call holds
    · intro s member
      obtain ⟨j, found⟩ := List.mem_iff_getElem?.mp member
      rw [perform_edit, List.getElem?_modify, Option.map_eq_map, Option.map_eq_some_iff] at found
      obtain ⟨r, earlier, rfl⟩ := found
      have before := holds r (List.mem_of_getElem? earlier)
      split
      · exact edited r i change first before
      · exact before

end Store

end Rollup
