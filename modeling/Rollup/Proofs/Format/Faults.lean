import Rollup.Proofs.Batch.Plan
import Rollup.Proofs.Format.Json
import Rollup.Proofs.Groups

/-!
What can go wrong once a request is accepted. Main statements: planning a batch and writing it in
any format fail with faults of their own, about data that do not fit or cannot be written, or for a
reason that a reducer gives, and never for a format, a budget or a reducer that is unknown.
-/

namespace Rollup

namespace Fault

/-- The subject of a fault, if it has one. -/
def topic? : Fault → Option Topic
  | .required topic _ => some topic
  | .stepNotPositive _ | .groupingNegative _ | .defective _ _ => some .series
  | .budgetNotPositive _ => some .consolidation
  | .unknownReducer _ => some .reducer
  | .field _ => some .encoding
  | .unknownFormat _ => some .format
  | _ => none

/-- A fault about what is asked for: the format, the consolidation or a reducer. -/
def IsRejection (fault : Fault) : Prop :=
  fault.topic? ∈ [some .format, some .consolidation, some .reducer]

instance (fault : Fault) : Decidable fault.IsRejection :=
  inferInstanceAs (Decidable (fault.topic? ∈ _))

/-- An outcome that is no rejection. -/
def Accepted {α : Type} (outcome : Except Fault α) : Prop :=
  ∀ fault, outcome = .error fault → ¬ fault.IsRejection

variable {α β : Type}

theorem accepted_ok (x : α) : Accepted (.ok x : Except Fault α) := by
  intro fault failed
  cases failed

theorem accepted_error {fault : Fault} (late : ¬ fault.IsRejection) :
    Accepted (.error fault : Except Fault α) := by
  intro other failed
  cases failed
  exact late

theorem accepted_require (holds : Bool) {fault : Fault} (late : ¬ fault.IsRejection) :
    Accepted (require holds fault) := by
  cases holds with
  | true => exact accepted_ok ()
  | false => exact accepted_error late

theorem accepted_map {outcome : Except Fault α} (accepted : Accepted outcome) (f : α → β) :
    Accepted (outcome.map f) := by
  cases outcome with
  | error fault => exact accepted_error (accepted fault rfl)
  | ok x => exact accepted_ok (f x)

theorem accepted_bind {first : Except Fault α} {next : α → Except Fault β}
    (one : Accepted first) (two : ∀ x, Accepted (next x)) : Accepted (first >>= next) := by
  cases first with
  | error fault => exact accepted_error (one fault rfl)
  | ok x => exact two x

/-- A check that fails late, then what comes after it. -/
theorem accepted_after {holds : Bool} {fault : Fault} (late : ¬ fault.IsRejection)
    {next : Unit → Except Fault α} (rest : Accepted (next ())) :
    Accepted (require holds fault >>= next) :=
  accepted_bind (accepted_require holds late) fun _ => rest

theorem accepted_mapM_of_mem {f : α → Except Fault β} {xs : List α}
    (each : ∀ x ∈ xs, Accepted (f x)) : Accepted (xs.mapM f) := by
  intro fault failed
  obtain ⟨before, x, after, whole, _, refused⟩ := mapM_eq_error_iff.mp failed
  exact each x (by simp [whole]) fault refused

theorem accepted_mapM {f : α → Except Fault β} (each : ∀ x, Accepted (f x)) (xs : List α) :
    Accepted (xs.mapM f) :=
  accepted_mapM_of_mem fun x _ => each x

end Fault

open Fault

/-- The bound reducer gives reasons of its own and never fails as the program does. -/
def Series.IsForeign (s : Series) : Prop :=
  ∀ reducer, s.reducer = some reducer → ∀ group fault, reducer.reduce group = .error fault →
    fault.topic? = none

/-- Neither does a reducer that a look-up finds: it reduces all groups. -/
theorem Series.IsForeign.of_resolve {s : Series} (foreign : s.IsForeign) {reducer : Reducer}
    (found : (s.resolve .standard).1 = .ok reducer) (group : List Sample) (fault : Fault)
    (failed : reducer.reduce group = .error fault) : fault.topic? = none := by
  rcases s.resolve_cases .standard with ⟨other, held, outcome⟩ | ⟨_, _, outcome⟩ |
    ⟨_, _, ⟨other, listed, outcome⟩ | ⟨_, outcome⟩⟩
  all_goals
    rw [outcome] at found
    cases found
  · exact foreign reducer held group fault failed
  · obtain ⟨label, f, rfl⟩ := Registry.isStatistic_of_standard listed
    cases failed

theorem Series.IsForeign.not_feigns {s : Series} (foreign : s.IsForeign)
    (unknown : UnknownReducer) : ¬ s.Feigns unknown := by
  rintro ⟨_, reducer, held, failed⟩
  obtain ⟨_, group, _, _, _, refused⟩ := mapM_eq_error_iff.mp failed
  cases foreign reducer held group _ refused

namespace Time

theorem instants_accepted (start step : Int) (count : Nat) :
    Accepted (instants start step count) := by
  rw [instants]
  split
  · exact accepted_ok _
  · exact accepted_error (by decide)

theorem labelCount_accepted (count : Int) : Accepted (labelCount count) := by
  simp only [labelCount]
  repeat' split
  all_goals first
    | exact accepted_ok _
    | exact accepted_error (by decide)

theorem label_accepted (zone : Zone) (t : Int) : Accepted (label zone t) := by
  rw [label]
  split
  · exact accepted_ok none
  · apply accepted_map
    apply accepted_after (by decide)
    apply accepted_after (by decide)
    apply accepted_after (by decide)
    exact accepted_ok _

theorem labels_accepted [Runtime] (start step count : Int) (zone : Text) :
    Accepted (labels start step count zone) := by
  rw [labels]
  split
  · exact accepted_ok []
  · apply accepted_bind (labelCount_accepted count)
    intro number
    apply accepted_bind (instants_accepted start step number)
    intro times
    apply accepted_after (by decide)
    apply accepted_bind
    · cases Runtime.zone zone with
      | error reason => exact accepted_error (by simp [IsRejection, topic?])
      | ok found => exact accepted_ok found
    · intro found
      exact accepted_mapM (label_accepted found) times

end Time

theorem Fault.characters_accepted (document : Text) : Accepted (characters document) := by
  rw [characters]
  split
  · exact accepted_ok _
  · exact accepted_error (by decide)

section

variable [Runtime]

theorem integerText_accepted (n : Int) : Accepted (integerText n) := by
  rw [integerText]
  split
  · exact accepted_error (by simp [IsRejection, topic?])
  · exact accepted_ok _

theorem Csv.encode_accepted (zone : Text) (series : List Series) :
    Accepted (Csv.encode zone series) := by
  apply accepted_bind
  · apply accepted_mapM
    intro s
    apply accepted_after (by decide)
    apply accepted_bind (Time.labels_accepted _ _ _ zone)
    intro _
    exact accepted_ok _
  · intro _
    exact Fault.characters_accepted _

theorem Raw.encode_accepted (series : List Series) : Accepted (Raw.encode series) := by
  apply accepted_bind
  · apply accepted_mapM
    intro s
    apply accepted_bind (integerText_accepted s.start)
    intro _
    apply accepted_bind (integerText_accepted s.stop)
    intro _
    apply accepted_bind (integerText_accepted s.step)
    intro _
    exact accepted_ok _
  · intro _
    exact Fault.characters_accepted _

namespace Pickle

omit [Runtime] in
theorem ofInt_accepted (number : Int) : Accepted (Protocol.ofInt number) := by
  rw [Protocol.ofInt]
  repeat' split
  all_goals first
    | exact accepted_ok _
    | exact accepted_error (by simp [IsRejection, topic?])

theorem excess_late {p : Protocol} {opcode : Opcode} {fault : Fault}
    (large : excess p opcode = some fault) : ¬ fault.IsRejection := by
  simp only [excess] at large
  split at large
  case h_3 =>
    obtain ⟨limit, _, rfl⟩ := Option.map_eq_some_iff.mp large
    simp [IsRejection, topic?]
  all_goals repeat' split at large
  all_goals cases large
  all_goals decide

theorem encode_accepted (protocol : Int) (series : List Series) :
    Accepted (encode protocol series) := by
  apply accepted_bind (ofInt_accepted protocol)
  intro p
  simp only
  split
  · next fault large =>
    obtain ⟨opcode, _, excessive⟩ := List.exists_of_findSome?_eq_some large
    exact accepted_error (excess_late excessive)
  · apply accepted_after (by decide)
    exact accepted_ok _

end Pickle

theorem Protobuf.encode_accepted (series : List Series) : Accepted (Protobuf.encode series) := by
  apply accepted_bind
  · apply accepted_mapM
    intro s
    rw [FetchRecord.message]
    split
    · exact accepted_error (by simp [IsRejection, topic?])
    · exact accepted_ok _
  · intro _
    exact accepted_ok _

end

namespace Json

/-- Only reading the view can find no reducer, and that leaves the series out. The second reading,
for the times, finds the first one: it looks nothing up. -/
theorem entry_ne_unknown (s : Series) (unknown : UnknownReducer) :
    (entry s).1 ≠ .error (.unknownReducer unknown) := by
  have again := s.aggregated_again
  rcases read : s.aggregated with ⟨fault | view, after⟩
  · cases fault <;> simp [entry, read]
  · rw [read] at again
    have times := Time.instants_accepted after.start after.aggregatedStep view.length
    simp only [entry, read, aggregatedTimestamps_of_ok again]
    cases all : Time.instants after.start after.aggregatedStep view.length with
    | error fault =>
      rintro same
      cases same
      exact times _ all (by simp [IsRejection, topic?])
    | ok _ => simp

/-- A reading fails for a reason that a reducer gives, unless it finds no reducer. -/
theorem aggregated_accepted {s : Series} (foreign : s.IsForeign) :
    (∃ unknown, s.aggregated.1 = .error (.unknownReducer unknown)) ∨ Accepted s.aggregated.1 := by
  cases kept : s.view with
  | some view =>
    simp only [Series.aggregated, kept]
    exact .inr (accepted_ok view)
  | none =>
    simp only [Series.aggregated, kept]
    rcases s.aggregate_cases with ⟨_, outcome⟩ | ⟨_, unknown, _, outcome⟩ |
      ⟨_, reducer, found, ⟨fault, failed, outcome⟩ | ⟨view, _, outcome⟩⟩
    all_goals rw [outcome]
    · exact .inr (accepted_ok s.values)
    · exact .inl ⟨unknown, rfl⟩
    · obtain ⟨_, group, _, _, _, refused⟩ := mapM_eq_error_iff.mp failed
      have reason := foreign.of_resolve found group fault refused
      exact .inr (accepted_error (by simp [IsRejection, reason]))
    · exact .inr (accepted_ok view)

theorem entry_accepted {s : Series} (foreign : s.IsForeign) : Accepted (entry s).1 := by
  have again := s.aggregated_again
  have first := aggregated_accepted foreign
  rcases read : s.aggregated with ⟨fault | view, after⟩
  · rw [read] at first
    rcases first with ⟨unknown, missing⟩ | late
    · cases missing
      simp only [entry, read]
      exact accepted_ok _
    · have kind := late fault rfl
      cases fault with
      | unknownReducer unknown => exact absurd (by simp [IsRejection, topic?]) kind
      | _ =>
        simp only [entry, read]
        exact accepted_error kind
  · rw [read] at again
    have times := Time.instants_accepted after.start after.aggregatedStep view.length
    simp only [entry, read, aggregatedTimestamps_of_ok again]
    cases all : Time.instants after.start after.aggregatedStep view.length with
    | error fault => exact accepted_error (times fault all)
    | ok _ => exact accepted_ok _

theorem encode_accepted {batch : Batch} {store : Store}
    (foreign : ∀ s ∈ batch.series store, s.IsForeign) : Accepted (encode batch store).1 := by
  rw [encode_fst]
  apply accepted_map
  exact accepted_mapM_of_mem fun s member => entry_accepted (foreign s member)

/-- In no state does writing a document fail for want of a reducer. -/
theorem encode_ne_unknown (batch : Batch) (store : Store) (unknown : UnknownReducer) :
    (encode batch store).1 ≠ .error (.unknownReducer unknown) := by
  intro failed
  rw [encode_fst] at failed
  cases written : (batch.series store).mapM fun s => (entry s).1 with
  | ok outcomes =>
    rw [written] at failed
    cases failed
  | error fault =>
    rw [written] at failed
    cases failed
    obtain ⟨_, s, _, _, _, missing⟩ := mapM_eq_error_iff.mp written
    exact entry_ne_unknown s unknown missing

end Json

section

variable [Runtime]

theorem Format.write_accepted (format : Format) (config : Config) {batch : Batch} {store : Store}
    (foreign : ∀ s ∈ batch.series store, s.IsForeign) :
    Accepted (format.write config batch store).1 := by
  cases format with
  | csv => exact accepted_map (Csv.encode_accepted _ _) _
  | json => exact accepted_map (Json.encode_accepted foreign) _
  | pickle => exact accepted_map (Pickle.encode_accepted _ _) _
  | protobuf => exact accepted_map (Protobuf.encode_accepted _) _
  | raw => exact accepted_map (Raw.encode_accepted _) _

theorem Format.write_ne_unknown (format : Format) (config : Config) (batch : Batch) (store : Store)
    (unknown : UnknownReducer) :
    (format.write config batch store).1 ≠ .error (.unknownReducer unknown) := by
  have missing : (Fault.unknownReducer unknown).IsRejection := by simp [IsRejection, topic?]
  intro failed
  cases format with
  | json =>
    have written := Json.encode_ne_unknown batch store unknown
    simp only [write] at failed
    cases answer : (Json.encode batch store).1 with
    | ok result =>
      rw [answer] at failed
      cases failed
    | error fault =>
      rw [answer] at failed written
      cases failed
      exact written rfl
  | csv => exact accepted_map (Csv.encode_accepted _ _) _ _ failed missing
  | pickle => exact accepted_map (Pickle.encode_accepted _ _) _ _ failed missing
  | protobuf => exact accepted_map (Protobuf.encode_accepted _) _ _ failed missing
  | raw => exact accepted_map (Raw.encode_accepted _) _ _ failed missing

theorem Series.plan_accepted (span budget : Int) (s : Series) : Accepted (s.plan span budget) := by
  rw [plan]
  split
  · exact accepted_error (by decide)
  · simp only
    split
    · exact accepted_ok s
    · split
      · exact accepted_error (by decide)
      · next quotient =>
        rw [regroup_of_ceilQuotient quotient]
        exact accepted_ok _

theorem Batch.planAll_accepted (span budget : Int) (positions : List Nat) (store : Store) :
    Accepted (planAll span budget positions store).1 := by
  fun_induction planAll span budget positions store with
  | case1 store => exact accepted_ok ()
  | case2 i rest store absent ih => exact ih
  | case3 i rest store s found fault failed =>
    exact accepted_error (s.plan_accepted span budget fault failed)
  | case4 i rest store s found next done ih => exact ih

/-- A plan is rejected for its budget alone, and before anything is planned. -/
theorem Batch.rejected_or_accepted (budget : Int) (batch : Batch) (store : Store) :
    (budget ≤ 0 ∧ isWritable budget = true ∧
      batch.consolidate budget store = (.error (.budgetNotPositive budget), store)) ∨
      Accepted (batch.consolidate budget store).1 := by
  rcases consolidate_cases budget batch store with
    ⟨limit, _, failed⟩ | ⟨few, writable, rejected⟩ | ⟨_, _, planned⟩
  · rw [failed]
    exact .inr (accepted_error (by simp [IsRejection, topic?]))
  · exact .inl ⟨few, writable, rejected⟩
  · rw [planned]
    split
    · exact .inr (accepted_ok ())
    · exact .inr (planAll_accepted _ _ _ store)

end

end Rollup
