import Rollup.Proofs.Store.Evolution

/-!
Four of the five formats give the samples as they are. Main statement: what is written in them does
not depend on grouping, reducers, views and failures, so a request for such a document answers as
if nothing had been planned and resolved before the batch is written.
-/

namespace Rollup

namespace Format

/-- The name, in any case, is the one of the format or a further name of it. -/
def IsNamed (format : Format) (name : Text) : Prop :=
  Text.lower name = format.name ∨
    ∃ spelling, (spelling, format) ∈ aliases ∧ Text.lower name = spelling

theorem ofName?_of_isNamed {format : Format} {name : Text} (named : format.IsNamed name) :
    ofName? name = some format := by
  rcases named with own | ⟨spelling, further, lower⟩
  · rw [ofName?, own]
    cases format <;> decide
  · simp only [aliases, List.mem_cons, Prod.mk.injEq, List.not_mem_nil, or_false] at further
    rcases further with ⟨rfl, rfl⟩ | ⟨rfl, rfl⟩
    · rw [ofName?, lower]
      decide
    · rw [ofName?, lower]
      decide

end Format

section

variable [Runtime]

theorem Csv.encode_bare (zone : Text) (series : List Series) :
    encode zone (series.map Series.bare) = encode zone series := by
  rw [encode, encode, List.mapM_map]
  rfl

theorem Pickle.encode_bare (protocol : Int) (series : List Series) :
    encode protocol (series.map Series.bare) = encode protocol series := by
  have same : recordsOf (series.map Series.bare) = recordsOf series := by
    rw [recordsOf, recordsOf, List.zipIdx_map, List.map_map]
    rfl
  rw [encode, encode, same]

theorem Protobuf.encode_bare (series : List Series) :
    encode (series.map Series.bare) = encode series := by
  rw [encode, encode, List.mapM_map]
  rfl

theorem Raw.encode_bare (series : List Series) :
    encode (series.map Series.bare) = encode series := by
  rw [encode, encode, List.mapM_map]
  rfl

namespace Format

variable {format : Format} {store other : Store} {batch : Batch}

theorem write_eq_of_bare (samples : format ≠ .json)
    (same : (batch.series other).map Series.bare = (batch.series store).map Series.bare)
    (config : Config) :
    (format.write config batch other).1 = (format.write config batch store).1 := by
  cases format with
  | json => exact absurd rfl samples
  | csv =>
    simp only [write]
    rw [← Csv.encode_bare, same, Csv.encode_bare]
  | pickle =>
    simp only [write]
    rw [← Pickle.encode_bare, same, Pickle.encode_bare]
  | protobuf =>
    simp only [write]
    rw [← Protobuf.encode_bare, same, Protobuf.encode_bare]
  | raw =>
    simp only [write]
    rw [← Raw.encode_bare, same, Raw.encode_bare]

end Format

end

namespace Batch

theorem series_map (change : Series → Series) (batch : Batch) (store : Store) :
    batch.series (store.map change) = (batch.series store).map change := by
  simp [series, present, List.map_filterMap]

theorem series_bare {before after : Store}
    (same : List.Forall₂ (fun s next : Series => next.bare = s.bare) before after) (batch : Batch) :
    (batch.series after).map Series.bare = (batch.series before).map Series.bare := by
  have whole : after.map Series.bare = before.map Series.bare := by
    induction same with
    | nil => rfl
    | cons pair _ ih => rw [List.map_cons, List.map_cons, pair, ih]
  rw [← series_map, ← series_map, whole]

end Batch

theorem Store.Evolves.bare {before after : Store} (evolves : Evolves before after) :
    List.Forall₂ (fun s next : Series => next.bare = s.bare) before after :=
  evolves.imp fun _ _ => Series.Steps.bare_eq

/-- The operation that writes a batch in a format and nothing else. -/
def Operation.writing (format : Format) (config : Config) (batch : Batch) : Operation :=
  match format with
  | .csv => .csv batch config.zone
  | .json => .json batch
  | .pickle => .pickle batch config.pickleProtocol
  | .protobuf => .protobuf batch
  | .raw => .raw batch

namespace Format

section

variable [Runtime] {format : Format} {store other : Store} {batch : Batch}

theorem perform_writing (samples : format ≠ .json) (config : Config) (batch : Batch)
    (store : Store) :
    store.perform (.writing format config batch) =
      ((format.write config batch store).1.map (Answer.document · []), store) := by
  cases format with
  | json => exact absurd rfl samples
  | csv | pickle | protobuf | raw => rfl

/-- A format but JSON has one outcome, bytes or a fault, for all states of the series of a batch
that differ only in grouping and in what was worked out, and leaves them as they are. A request by
any name of the format has that outcome too, unless its plan fails. -/
theorem outcome_of_samples (samples : format ≠ .json)
    (same : (batch.series other).map Series.bare = (batch.series store).map Series.bare)
    (config : Config) :
    ∃ outcome : Except Fault Document,
      store.perform (.writing format config batch) =
        (outcome.map (Answer.document · []), store) ∧
      other.perform (.writing format config batch) =
        (outcome.map (Answer.document · []), other) ∧
      ∀ name budget, format.IsNamed name →
        (∀ points, budget = some points → (batch.consolidate points store).1 = .ok ()) →
        ∃ unknowns, (store.perform (.encode batch name budget config)).1 =
          outcome.map (Answer.document · unknowns) := by
  refine ⟨(format.write config batch store).1, ?_, ?_, ?_⟩
  · exact perform_writing samples config batch store
  · rw [perform_writing samples, write_eq_of_bare samples same]
  · intro name budget named planned
    have known := ofName?_of_isNamed named
    rcases batch.encode_cases name budget config store with
      ⟨unknown, _⟩ | ⟨fault, next, failed, _⟩ | ⟨format', next, known', prepared, answer⟩
    · rw [known] at unknown
      cases unknown
    · cases budget with
      | none => cases failed
      | some points =>
        have done := planned points rfl
        rw [Batch.prepare] at failed
        rw [failed] at done
        cases done
    · rw [known] at known'
      cases known'
      have evolves := Store.prepare_evolves budget batch store
      rw [prepared] at evolves
      have bound : Store.Evolves store (batch.resolve .standard next).2 :=
        evolves.trans (Store.resolveAll_evolves .standard (batch.present next) next)
      refine ⟨(batch.resolve .standard next).1, ?_⟩
      simp only [Store.perform, answer]
      rw [write_eq_of_bare samples (batch.series_bare bound.bare)]
      cases (format.write config batch store).1 <;> rfl

end

/-- A series twice, once as it was made and once grouped, with a view that is not its own and a
failure that it remembers. -/
theorem outcome_of_samples_regrouped :
    ∃ (store other : Store) (batch : Batch) (outcome : Except Fault Document)
      (unknowns : List UnknownReducer) (s : Series),
      s = { name := "a|b", start := 0, stop := 30, step := 10,
            values := [.ofNat 1, .missing, .ofNat 3], consolidation := "none" } ∧
      store = [s] ∧ other = [{ s with grouping := 2, view := some [.missing],
                                      unresolved := some ⟨"a|b", "none"⟩, lookups := 1 }] ∧
      batch = [some 0, none, some 0] ∧
      (batch.series other).map Series.bare = (batch.series store).map Series.bare ∧
      store.perform (.writing .protobuf {} batch) =
        (outcome.map (Answer.document · []), store) ∧
      other.perform (.writing .protobuf {} batch) =
        (outcome.map (Answer.document · []), other) ∧
      (batch.consolidate 2 store).1 = .ok () ∧
      (store.perform (.encode batch "CarbonAPI_v3_PB" (some 2) {})).1 =
        outcome.map (Answer.document · unknowns) := by
  let s : Series :=
    { name := "a|b", start := 0, stop := 30, step := 10,
      values := [.ofNat 1, .missing, .ofNat 3], consolidation := "none" }
  let store : Store := [s]
  let other : Store := [{ s with grouping := 2, view := some [.missing],
                                 unresolved := some ⟨"a|b", "none"⟩, lookups := 1 }]
  let batch : Batch := [some 0, none, some 0]
  have planned : (batch.consolidate 2 store).1.isOk = true := by decide +kernel
  have done : (batch.consolidate 2 store).1 = .ok () := by
    cases outcome : (batch.consolidate 2 store).1 with
    | error fault =>
      rw [outcome] at planned
      cases planned
    | ok done => rfl
  have samples : Format.protobuf ≠ .json := by decide
  have same : (batch.series other).map Series.bare = (batch.series store).map Series.bare := rfl
  obtain ⟨outcome, direct, again, requests⟩ := outcome_of_samples samples same {}
  obtain ⟨unknowns, request⟩ := requests "CarbonAPI_v3_PB" (some 2) 
      (.inr ⟨"carbonapi_v3_pb", by decide, by decide +kernel⟩) <| by
    intro points same
    cases same
    exact done
  exact ⟨store, other, batch, outcome, unknowns, s, rfl, rfl, rfl, rfl, same, direct, again, done,
    request⟩

end Format

end Rollup
