import Rollup.Proofs.Batch.Arrangement
import Rollup.Proofs.Batch.Rejection
import Rollup.Proofs.Tags

/-!
Tags in the documents of a batch. Main statement: a request for a document does not see the order in
which tags were set, since the tags are written in the order of their keys; and two documents of one
series each, with different maps of tags, are different texts, unless halves of a pair that meet in
a text are taken for the character of the pair.
-/

namespace Rollup

namespace Json

variable {tags others : Tags}

theorem IsTextMap.isMap (map : IsTextMap tags) : Tags.IsMap tags := map.keys

theorem sortedTags_again (tags : Tags) :
    Entry.sortedTags (Entry.sortedTags tags) = Entry.sortedTags tags := by
  refine List.mergeSort_of_pairwise ((sortedTags_sorted tags).imp ?_)
  exact decide_eq_true

theorem sortedTags_congr (map : Tags.IsMap tags) (perm : tags.Perm others) :
    Entry.sortedTags others = Entry.sortedTags tags :=
  mergeSort_key_congr (fun t : Text × TagValue => t.1)
    (fun _ first _ second same => List.inj_on_of_nodup_map map first second same) perm

/-- An entry with its tags in the order in which they are written. -/
def Entry.ordered (e : Entry) : Entry := { e with tags := sortedTags e.tags }

theorem Entry.text_ordered (e : Entry) : e.ordered.text = e.text := by
  rw [text_eq, text_eq, ordered, sortedTags_again]

theorem document_ordered (outcomes : List (Except UnknownReducer Entry)) :
    document ((outcomes.map (Except.map Entry.ordered)).filterMap Except.toOption) =
      document (outcomes.filterMap Except.toOption) := by
  have same : Except.toOption ∘ Except.map Entry.ordered =
      fun outcome : Except UnknownReducer Entry => outcome.toOption.map Entry.ordered := by
    funext outcome
    cases outcome <;> rfl
  have texts : Entry.text ∘ Entry.ordered = Entry.text := funext Entry.text_ordered
  rw [List.filterMap_map, same, ← List.map_filterMap, document, List.map_map, texts, document]

theorem unknowns_ordered (outcomes : List (Except UnknownReducer Entry)) :
    (outcomes.map (Except.map Entry.ordered)).filterMap unknown? = outcomes.filterMap unknown? := by
  have same : unknown? ∘ Except.map Entry.ordered = unknown? := by
    funext outcome
    cases outcome <;> rfl
  rw [List.filterMap_map, same]

end Json

namespace Series

/-- A series with its tags in the order of their keys. -/
def ordered (s : Series) : Series := { s with tags := Json.Entry.sortedTags s.tags }

/-- The two series are in one state, except that the tags of one, as a map the same, may have been
set in another order. -/
structure IsRetagged (s r : Series) : Prop where
  frame : r = { s with tags := r.tags }
  map : s.tags.IsMap
  map' : r.tags.IsMap
  same : ∀ key, s.tags.get? key = r.tags.get? key

variable {s r : Series}

theorem IsRetagged.ordered_eq (retagged : s.IsRetagged r) : s.ordered = r.ordered := by
  have perm : s.tags.Perm r.tags := (retagged.map.perm_iff retagged.map').mpr retagged.same
  rw [ordered, ordered, Json.sortedTags_congr retagged.map perm, retagged.frame]

theorem ordered_of_retagged {series others : List Series}
    (retagged : List.Forall₂ IsRetagged series others) :
    series.map ordered = others.map ordered := by
  induction retagged with
  | nil => rfl
  | cons first _ ih => rw [List.map_cons, List.map_cons, first.ordered_eq, ih]

theorem resolve_ordered (registry : Registry) (s : Series) :
    s.ordered.resolve registry = ((s.resolve registry).1, (s.resolve registry).2.ordered) := by
  rw [@resolve_congr s s.ordered registry rfl rfl rfl rfl rfl, ordered, ordered, resolve_frame]

theorem resolvedBy_ordered (registry : Registry) (s : Series) :
    s.ordered.resolvedBy registry = (s.resolvedBy registry).ordered := by
  by_cases single : s.grouping ≤ 1
  · have single' : s.ordered.grouping ≤ 1 := single
    rw [resolvedBy, resolvedBy, if_pos single, if_pos single']
  · have several : ¬ s.ordered.grouping ≤ 1 := single
    rw [resolvedBy, resolvedBy, if_neg single, if_neg several, resolve_ordered]

theorem reportBy_ordered (registry : Registry) (s : Series) :
    s.ordered.reportBy registry = s.reportBy registry := by
  have same : s.ordered.grouping = s.grouping := rfl
  rw [reportBy, reportBy, resolve_ordered, same]

theorem aggregate_ordered (s : Series) :
    s.ordered.aggregate = (s.aggregate.1, s.aggregate.2.ordered) := by
  have same : s.ordered.grouping = s.grouping ∧ s.ordered.values = s.values := ⟨rfl, rfl⟩
  rw [aggregate, aggregate, resolve_ordered, same.1, same.2]
  by_cases single : s.grouping ≤ 1
  · rw [if_pos single, if_pos single]
    rfl
  · rw [if_neg single, if_neg single]
    rcases s.resolve .standard with ⟨unknown | reducer, after⟩
    · rfl
    · simp only
      cases reduceGroups reducer s.grouping.toNat s.values <;> rfl

theorem aggregated_ordered (s : Series) :
    s.ordered.aggregated = (s.aggregated.1, s.aggregated.2.ordered) := by
  have same : s.ordered.view = s.view := rfl
  rw [aggregated, aggregated, same]
  cases s.view with
  | none => exact s.aggregate_ordered
  | some view => rfl

theorem aggregatedTimestamps_ordered (s : Series) :
    s.ordered.aggregatedTimestamps =
      (s.aggregatedTimestamps.1, s.aggregatedTimestamps.2.ordered) := by
  rw [aggregatedTimestamps, aggregatedTimestamps, aggregated_ordered]
  rcases s.aggregated with ⟨fault | view, after⟩ <;> rfl

theorem entry_ordered (s : Series) :
    (Json.entry s.ordered).1 = (Json.entry s).1.map (Except.map Json.Entry.ordered) := by
  rw [Json.entry, Json.entry, aggregated_ordered]
  rcases s.aggregated with ⟨fault | view, after⟩
  · cases fault <;> rfl
  · simp only [aggregatedTimestamps_ordered]
    rcases after.aggregatedTimestamps with ⟨fault | times, last⟩ <;> rfl

end Series

namespace Batch

variable {store next : Store} {batch other : Batch} {budget : Int}

section Planned

variable [Runtime]

/-- The outcome of a plan for a budget goes by the span and the steps of a batch. -/
def outcomeOf (span budget : Int) (series : List Series) : Except Fault Unit :=
  match Fault.requireOf budget (0 < budget) (.budgetNotPositive budget) with
  | .error fault => .error fault
  | .ok () =>
    if span ≤ 0 then .ok ()
    else
      match (series.filterMap (Series.planFault span budget)).head? with
      | none => .ok ()
      | some fault => .error fault

theorem consolidate_outcome (budget : Int) (batch : Batch) (store : Store) :
    (batch.consolidate budget store).1 =
      outcomeOf (batch.duration store) budget (batch.series store) := by
  rw [outcomeOf]
  rcases checked : Fault.requireOf budget (0 < budget) (.budgetNotPositive budget) with
    fault | ⟨⟩
  · simp only [consolidate, checked]
  · obtain ⟨writable, positive⟩ := Fault.requireOf_eq_ok_iff.mp checked
    rw [consolidate_of_positive writable (of_decide_eq_true positive)]
    simp only
    split
    · rfl
    · rw [series, List.filterMap_filterMap, List.head?_filterMap]
      exact planAll_fst (batch.duration store) budget (batch.present store) store

theorem series_consolidate (done : (batch.consolidate budget store).1 = .ok ()) :
    batch.series (batch.consolidate budget store).2 =
      (batch.series store).map fun s => s.reshaped
        (Series.plannedShape (batch.duration store) budget s.step (s.grouping, s.view)) := by
  have length : (batch.consolidate budget store).2.length = store.length :=
    (Store.consolidate_frame budget batch store).length_eq.symm
  rw [series, series, present_eq length, List.map_filterMap]
  apply List.filterMap_congr
  intro i chosen
  rw [getElem?_of_consolidate done, if_pos chosen]

end Planned

section Ordered

variable (same : (batch.series store).map Series.ordered = (other.series next).map Series.ordered)
include same

theorem duration_of_ordered : batch.duration store = other.duration next := by
  have unseen (series : List Series) : timeRange (series.map Series.ordered) = timeRange series :=
    timeRange_map Series.ordered (fun _ => rfl) (fun _ => rfl) series
  rw [duration, duration, ← unseen (batch.series store), same, unseen]

theorem consolidate_of_ordered [Runtime] (budget : Int) :
    (batch.consolidate budget store).1 = (other.consolidate budget next).1 ∧
      ((batch.consolidate budget store).1 = .ok () →
        (batch.series (batch.consolidate budget store).2).map Series.ordered =
          (other.series (other.consolidate budget next).2).map Series.ordered) := by
  have span := duration_of_ordered same
  have unseen : Series.planFault (other.duration next) budget ∘ Series.ordered =
      Series.planFault (other.duration next) budget :=
    funext fun s => Series.planFault_of_step rfl
  have faults : (batch.series store).filterMap (Series.planFault (other.duration next) budget) =
      (other.series next).filterMap (Series.planFault (other.duration next) budget) := by
    rw [← unseen, ← List.filterMap_map, ← List.filterMap_map, same]
  have together : (batch.consolidate budget store).1 = (other.consolidate budget next).1 := by
    rw [consolidate_outcome, consolidate_outcome, outcomeOf, outcomeOf, span, faults]
  refine ⟨together, fun done => ?_⟩
  -- the shape that planning leaves goes by fields that the order of tags does not touch
  let shaped (s : Series) : Series := s.reshaped
    (Series.plannedShape (other.duration next) budget s.step (s.grouping, s.view))
  have commutes : Series.ordered ∘ shaped = shaped ∘ Series.ordered := rfl
  rw [series_consolidate done, series_consolidate (together ▸ done), span, List.map_map,
    List.map_map, commutes, ← List.map_map, same, List.map_map]

theorem prepare_of_ordered [Runtime] (budget : Option Int) :
    (batch.prepare budget store).1 = (other.prepare budget next).1 ∧
      ((batch.prepare budget store).1 = .ok () →
        (batch.series (batch.prepare budget store).2).map Series.ordered =
          (other.series (other.prepare budget next).2).map Series.ordered) := by
  cases budget with
  | none => exact ⟨rfl, fun _ => same⟩
  | some budget => exact consolidate_of_ordered same budget

theorem resolve_of_ordered (registry : Registry) :
    (batch.resolve registry store).1 = (other.resolve registry next).1 ∧
      (batch.series (batch.resolve registry store).2).map Series.ordered =
        (other.series (other.resolve registry next).2).map Series.ordered := by
  have reports (batch : Batch) (store : Store) : (batch.resolve registry store).1 =
      ((batch.series store).map Series.ordered).filterMap (Series.reportBy registry) := by
    have unseen : Series.reportBy registry ∘ Series.ordered = Series.reportBy registry :=
      funext (Series.reportBy_ordered registry)
    rw [List.filterMap_map, unseen, series, List.filterMap_filterMap]
    exact Store.resolveAll_reports registry (batch.present store) store
  have commutes : Series.ordered ∘ Series.resolvedBy registry =
      Series.resolvedBy registry ∘ Series.ordered :=
    funext fun s => (Series.resolvedBy_ordered registry s).symm
  constructor
  · rw [reports, reports, same]
  · rw [series_resolve, series_resolve, List.map_map, List.map_map, commutes, ← List.map_map, same,
      List.map_map]

theorem json_of_ordered : (Json.encode batch store).1 = (Json.encode other next).1 := by
  have written (batch : Batch) (store : Store) : (Json.encode batch store).1 =
      (((batch.series store).map Series.ordered).mapM fun s => (Json.entry s).1).map
        fun outcomes => (Json.document (outcomes.filterMap Except.toOption),
          outcomes.filterMap Json.unknown?) := by
    have each : (fun s => (Json.entry s).1) ∘ Series.ordered =
        fun s => (Json.entry s).1.map (Except.map Json.Entry.ordered) :=
      funext Series.entry_ordered
    rw [Json.encode_fst, List.mapM_map, each, mapM_map_outcome]
    cases (batch.series store).mapM fun s => (Json.entry s).1 with
    | error fault => rfl
    | ok outcomes =>
      exact congrArg Except.ok (Prod.ext (Json.document_ordered outcomes).symm
        (Json.unknowns_ordered outcomes).symm)
  rw [written, written, same]

end Ordered

end Batch

namespace Json

/-- A request for a document in this format: the plain one, or one by a name of the format. -/
inductive Request where
  | plain
  | named (name : Text) (json : Format.json.IsNamed name) (budget : Option Int) (config : Config)

/-- The request made for a batch. -/
def Request.on (batch : Batch) : Request → Operation
  | plain => .json batch
  | named name _ budget config => .encode batch name budget config

/-- The text answers the request for a batch that names one series, and shows that series. -/
structure Request.Shows [Runtime] (request : Request) (batch : Batch) (store : Store) (s : Series)
    (text : List Char) : Prop where
  alone : batch.series store = [s]
  answered : ∃ unknowns,
    (store.perform (request.on batch)).1 = .ok (.document (.text text) unknowns)
  emitted : text ≠ document []

theorem IsSorted.perm {tags others : Tags} {entries : List (Text × Value)}
    (first : IsSorted id tags entries) (second : IsSorted id others entries) :
    tags.Perm others := by
  obtain ⟨pairs, rfl, perm, _⟩ := first
  obtain ⟨pairs', same, perm', _⟩ := second
  have told : Function.Injective fun e : Text × Text => (id e.1, Value.text (id e.2)) := by
    rintro ⟨key, v⟩ ⟨key', v'⟩ equal
    simpa using equal
  rw [← List.map_injective_iff.mpr told same] at perm'
  exact perm.trans perm'.symm

/-- What stands for two entries stands for one map of tags. -/
theorem Entry.Shows.perm {e e' : Entry} {v : Value} (first : e.Shows v) (second : e'.Shows v)
    (plain : IsPlainMap e.tags) (plain' : IsPlainMap e'.tags) : e.tags.Perm e'.tags := by
  obtain ⟨points, tags, _, sorted, rfl⟩ := first
  obtain ⟨points', tags', _, sorted', same⟩ := second
  have equal : tags = tags' := by
    simp only [Value.object.injEq, List.cons.injEq, Prod.mk.injEq, and_true, true_and] at same
    exact same.2.2
  rw [← equal] at sorted'
  exact (sorted.plain plain).perm (sorted'.plain plain')

/-- Equal documents show equal maps of tags: no text in a key or a value stands for another map. -/
theorem perm_of_document {entries others : List Entry}
    (plain : ∀ e ∈ entries, IsPlainMap e.tags) (plain' : ∀ e ∈ others, IsPlainMap e.tags)
    (same : document entries = document others) :
    List.Forall₂ (fun e e' => e.tags.Perm e'.tags) entries others := by
  obtain ⟨values, whole, first⟩ :=
    reads_document entries fun e member => (plain e member).toIsTextMap
  obtain ⟨values', whole', second⟩ :=
    reads_document others fun e member => (plain' e member).toIsTextMap
  rw [same, whole'] at whole
  cases whole
  clear same whole'
  induction first generalizing others with
  | nil =>
    cases second
    exact .nil
  | @cons e v entries values shown _ ih =>
    cases second with
    | cons shown' rest =>
      have later := ih (fun e member => plain e (List.mem_cons_of_mem _ member))
        (fun e member => plain' e (List.mem_cons_of_mem _ member)) rest
      exact .cons (shown.perm shown' (plain e (by simp)) (plain' _ (by simp))) later

/-- The entries of a document have the tags of series of the batch, in order. -/
theorem tags_of_encode {store : Store} {batch : Batch} {text : List Char}
    {unknowns : List UnknownReducer} (done : (encode batch store).1 = .ok (text, unknowns)) :
    ∃ entries, text = document entries ∧
      (entries.map Entry.tags).Sublist ((batch.series store).map Series.tags) := by
  rcases read : contents (batch.present store) store with ⟨fault | found, after⟩
  · simp [encode, read, Except.map] at done
  · simp only [encode, read, Except.map, Except.ok.injEq, Prod.mk.injEq] at done
    have written := entries_of_contents read
    refine ⟨found.entries, done.1.symm, ?_⟩
    have tags : found.entries.map Entry.tags =
        ((batch.series store).filter isShown).map Series.tags := by
      rw [← Batch.series] at written
      generalize (batch.series store).filter isShown = shown, found.entries = entries at written ⊢
      induction written with
      | nil => rfl
      | cons first _ ih =>
        obtain ⟨view, times, _, _, _, rfl⟩ := accounts_of_entry first
        rw [List.map_cons, List.map_cons, ih]
    rw [tags]
    exact List.filter_sublist.map Series.tags

theorem tags_of_written {store : Store} {batch : Batch}
    {reports : List Char × List UnknownReducer → List UnknownReducer}
    {text : List Char} {unknowns : List UnknownReducer}
    (answered : (encode batch store).1.map
      (fun result => Answer.document (.text result.1) (reports result)) =
        .ok (.document (.text text) unknowns)) :
    ∃ entries, text = document entries ∧
      (entries.map Entry.tags).Sublist ((batch.series store).map Series.tags) := by
  cases written : (encode batch store).1 with
  | error fault =>
    rw [written] at answered
    cases answered
  | ok result =>
    rw [written] at answered
    cases answered
    exact tags_of_encode written

section

variable [Runtime] {store next : Store} {batch other : Batch}

theorem perform_json (batch : Batch) (store : Store) :
    (store.perform (.json batch)).1 =
      (encode batch store).1.map fun result => .document (.text result.1) result.2 := by
  rcases written : encode batch store with ⟨outcome, after⟩
  simp only [Store.perform, written]

/-- A request by name plans the batch and resolves it, then writes it. -/
theorem perform_encode {name : Text} (json : Format.json.IsNamed name) (budget : Option Int)
    (config : Config) (batch : Batch) (store : Store) :
    (store.perform (.encode batch name budget config)).1 =
      match batch.prepare budget store with
      | (.error fault, _) => .error fault
      | (.ok (), planned) =>
        (encode batch (batch.resolve .standard planned).2).1.map fun result =>
          .document (.text result.1) (batch.resolve .standard planned).1 := by
  simp only [Store.perform, Batch.encode_eq (Format.ofName?_of_isNamed json)]
  rcases batch.prepare budget store with ⟨fault | ⟨⟩, planned⟩
  · rfl
  · simp only [Format.write]
    rcases encode batch (batch.resolve .standard planned).2 with ⟨fault | result, after⟩ <;> rfl

/-- What is answered does not go by the order of the tags. -/
theorem perform_of_ordered (request : Request)
    (same : (batch.series store).map Series.ordered = (other.series next).map Series.ordered) :
    (store.perform (request.on batch)).1 = (next.perform (request.on other)).1 := by
  cases request with
  | plain =>
    rw [Request.on, Request.on, perform_json, perform_json, Batch.json_of_ordered same]
  | named name json budget config =>
    rw [Request.on, Request.on, perform_encode json, perform_encode json]
    obtain ⟨together, onward⟩ := Batch.prepare_of_ordered same budget
    rcases prepared : batch.prepare budget store with ⟨fault | ⟨⟩, planned⟩
    all_goals
      rw [prepared] at together onward
      rcases prepared' : other.prepare budget next with ⟨outcome, planned'⟩
      rw [prepared'] at together onward
      cases together
    · rfl
    · obtain ⟨reports, resolved⟩ := Batch.resolve_of_ordered (onward rfl) .standard
      simp only [reports, Batch.json_of_ordered resolved]

/-- Planning and resolving keep the tags, so this holds of either request. -/
theorem tags_of_perform {request : Request} {text : List Char} {unknowns : List UnknownReducer}
    (answered : (store.perform (request.on batch)).1 = .ok (.document (.text text) unknowns)) :
    ∃ entries, text = document entries ∧
      (entries.map Entry.tags).Sublist ((batch.series store).map Series.tags) := by
  cases request with
  | plain =>
    rw [Request.on, perform_json] at answered
    exact tags_of_written answered
  | named name json budget config =>
    rw [Request.on, perform_encode json] at answered
    have evolves := Store.prepare_evolves budget batch store
    rcases prepared : batch.prepare budget store with ⟨fault | ⟨⟩, planned⟩
    all_goals rw [prepared] at answered evolves
    · cases answered
    · have kept : (batch.series (batch.resolve .standard planned).2).map Series.bare =
          (batch.series store).map Series.bare :=
        batch.series_bare (evolves.trans (Store.resolveAll_evolves .standard _ planned)).bare
      have bare : Series.tags ∘ Series.bare = Series.tags := rfl
      have tags : (batch.series (batch.resolve .standard planned).2).map Series.tags =
          (batch.series store).map Series.tags := by
        rw [← bare, ← List.map_map, kept, List.map_map]
      rw [← tags]
      exact tags_of_written answered

theorem Request.Shows.exists_entry {request : Request} {s : Series} {text : List Char}
    (shown : request.Shows batch store s text) :
    ∃ e : Entry, text = document [e] ∧ e.tags = s.tags := by
  obtain ⟨unknowns, answered⟩ := shown.answered
  obtain ⟨entries, same, among⟩ := tags_of_perform answered
  rw [shown.alone, List.map_singleton, List.sublist_singleton] at among
  rcases among with none | one
  · rw [List.map_eq_nil_iff.mp none] at same
    exact absurd same shown.emitted
  · obtain ⟨e, rfl, tags⟩ := List.map_eq_singleton_iff.mp one
    exact ⟨e, same, tags⟩

theorem Request.Shows.perm {request request' : Request} {s r : Series} {text : List Char}
    (plain : IsPlainMap s.tags) (plain' : IsPlainMap r.tags)
    (first : request.Shows batch store s text) (second : request'.Shows other next r text) :
    s.tags.Perm r.tags := by
  obtain ⟨e, rfl, tags⟩ := first.exists_entry
  obtain ⟨e', same, tags'⟩ := second.exists_entry
  rw [← tags] at plain ⊢
  rw [← tags'] at plain' ⊢
  have perms := perm_of_document (List.forall_mem_singleton.mpr plain)
    (List.forall_mem_singleton.mpr plain') same
  cases perms with
  | cons perm _ => exact perm

/-- Tags show in a document as a map and in no other way. Batches whose series are in one state but
for the order in which their tags were set have one answer to each request, with the same text and
the same reports, and a document tells the map of tags of the one series that it shows, if no two
halves of a pair meet in its keys and values. -/
theorem answers_of_tags :
    (∀ (request : Request) (store next : Store) (batch other : Batch),
      List.Forall₂ Series.IsRetagged (batch.series store) (other.series next) →
        (store.perform (request.on batch)).1 = (next.perform (request.on other)).1) ∧
    ∀ (request request' : Request) (store next : Store) (batch other : Batch) (s r : Series)
      (text text' : List Char), IsPlainMap s.tags → IsPlainMap r.tags →
        request.Shows batch store s text → request'.Shows other next r text' →
          (∃ key, s.tags.get? key ≠ r.tags.get? key) → text ≠ text' := by
  constructor
  · intro request store next batch other retagged
    exact perform_of_ordered request (Series.ordered_of_retagged retagged)
  · rintro request request' store next batch other s r text text' plain plain' first second
      ⟨key, differs⟩ rfl
    have perm := first.perm plain plain' second
    exact differs ((plain.toIsTextMap.isMap.perm_iff plain'.toIsTextMap.isMap).mp perm key)

end

/-- A document of a batch of one series is an answer that shows it, if it is not the empty one. -/
theorem exists_shows [Runtime] {s : Series}
    (written : ((encode [some 0] [s]).1.toOption.map
      fun result => decide (result.1 = document [])) = some false) :
    ∃ text, Request.plain.Shows [some 0] [s] s text ∧
      (encode [some 0] [s]).1.toOption.map Prod.fst = some text := by
  rcases outcome : (encode [some 0] [s]).1 with fault | ⟨text, unknowns⟩
  · rw [outcome] at written
    cases written
  · rw [outcome] at written
    refine ⟨text, ⟨rfl, ⟨unknowns, ?_⟩, of_decide_eq_false (Option.some.inj written)⟩, rfl⟩
    rw [Request.on, perform_json, outcome]
    rfl

/-- The two halves of a pair and the character of the pair are different keys, and one document
shows either. -/
theorem tags_not_told :
    ∃ (s r : Series) (text : List Char),
      s.tags = [([.half 0, .half 0x400], .text "x")] ∧
      r = { s with tags := [([.scalar (Char.ofNat 0x10000)], .text "x")] } ∧
      IsTextMap s.tags ∧ IsTextMap r.tags ∧
      Request.plain.Shows [some 0] [s] s text ∧ Request.plain.Shows [some 0] [r] r text ∧
      s.tags.get? [.half 0, .half 0x400] ≠ r.tags.get? [.half 0, .half 0x400] := by
  let s : Series :=
    { name := "a", start := 0, stop := 10, step := 10, values := [.ofNat 1],
      tags := [([.half 0, .half 0x400], .text "x")] }
  let r : Series := { s with tags := [([.scalar (Char.ofNat 0x10000)], .text "x")] }
  have one : (encode [some 0] [s]).1.toOption.map Prod.fst =
      (encode [some 0] [r]).1.toOption.map Prod.fst := by
    decide +kernel
  obtain ⟨text, first, written⟩ := exists_shows (s := s) (by decide +kernel)
  obtain ⟨text', second, written'⟩ := exists_shows (s := r) (by decide +kernel)
  have same : text = text' := Option.some.inj (written.symm.trans (one.trans written'))
  refine ⟨s, r, text, rfl, rfl, ⟨rfl, by decide⟩, ⟨rfl, by decide⟩, first, same ▸ second, ?_⟩
  simp [s, r, Tags.get?]

/-- One series twice and two series that differ in the order of their tags, planned for a budget,
and a value that has the marks of another map in it. -/
theorem answers_of_tags_imitated :
    ∃ (s r p q : Series) (request : Request) (text text' : List Char),
      s.tags = [(.ofString "b", .text "x"), (.ofString "a", .text "y")] ∧
      r = { s with tags := [("a", .text "y"), ("b", .text "x")] } ∧
      p = { s with tags := [("a", .text "b\",\"c\":\"d")] } ∧
      q = { s with tags := [("a", .text "b"), ("c", .text "d")] } ∧
      request.on [some 0, none, some 0] = .encode [some 0, none, some 0] "JSON" (some 2) {} ∧
      (Store.perform [s] (request.on [some 0, none, some 0])).1.isOk = true ∧
      (Store.perform [s] (request.on [some 0, none, some 0])).1 =
        (Store.perform [r, s] (request.on [some 0, some 1])).1 ∧
      Request.plain.Shows [some 0] [p] p text ∧ Request.plain.Shows [some 0] [q] q text' ∧
      text ≠ text' := by
  let s : Series :=
    { name := "a", start := 0, stop := 30, step := 10, values := [.ofNat 1, .missing, .ofNat 3],
      tags := [("b", .text "x"), ("a", .text "y")] }
  let r : Series := { s with tags := [("a", .text "y"), ("b", .text "x")] }
  let p : Series := { s with tags := [("a", .text "b\",\"c\":\"d")] }
  let q : Series := { s with tags := [("a", .text "b"), ("c", .text "d")] }
  let request : Request := .named "JSON" (.inl (by decide +kernel)) (some 2) {}
  have map : s.tags.IsMap := by decide
  have map' : r.tags.IsMap := by decide
  have swapped : s.IsRetagged r := ⟨rfl, map, map', (map.perm_iff map').mp (.swap _ _ _)⟩
  have kept : s.IsRetagged s := ⟨rfl, map, map, fun _ => rfl⟩
  have answered : (Store.perform [s] (request.on [some 0, none, some 0])).1.isOk = true := by
    decide +kernel
  have plain : IsPlainMap p.tags := (isPlain_of_isScalar (s := p) (by decide +kernel)).tags
  have plain' : IsPlainMap q.tags := (isPlain_of_isScalar (s := q) (by decide +kernel)).tags
  obtain ⟨text, first, _⟩ := exists_shows (s := p) (by decide +kernel)
  obtain ⟨text', second, _⟩ := exists_shows (s := q) (by decide +kernel)
  obtain ⟨same, told⟩ := answers_of_tags
  refine ⟨s, r, p, q, request, text, text', rfl, rfl, rfl, rfl, rfl, answered, ?_, first, second,
    ?_⟩
  · exact same request [s] [r, s] [some 0, none, some 0] [some 0, some 1]
      (.cons swapped (.cons kept .nil))
  · apply told .plain .plain _ _ _ _ p q text text' plain plain' first second
    refine ⟨.ofString "c", fun same => ?_⟩
    have held := congrArg Option.isSome same
    exact absurd held (by decide)

end Json

end Rollup
