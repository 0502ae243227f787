import Rollup.Proofs.Batch.Isolation
import Rollup.Proofs.Batch.Reports
import Rollup.Proofs.Format.Faults

/-!
Requests that are turned away. Main statement: a request for a document is checked before anything
is changed, its format first and then its budget, and no unknown reducer ends it; a reader finds in
a document every series that can be read, in whatever state the series are.
-/

namespace Rollup

namespace Series

/-- The view needs no reducer, or there is one. -/
def isReadable (s : Series) : Bool :=
  s.grouping ≤ 1 || s.view.isSome || (s.resolve .standard).1.isOk

theorem isReadable_eq (s : Series) :
    s.isReadable = (s.view.isSome || (s.reportBy .standard).isNone) := by
  rw [isReadable, reportBy]
  by_cases single : s.grouping ≤ 1
  · simp [single]
  · rcases (s.resolve .standard).1 with unknown | reducer
    all_goals simp [single, Except.isOk, Except.toBool]

theorem isReadable_resolved (s : Series) : s.resolved.isReadable = s.isReadable := by
  have view : s.resolved.view = s.view := by rw [resolved_frame]
  rw [isReadable_eq, isReadable_eq, view, ← resolvedBy_standard, reportBy_resolvedBy]

theorem IsForeign.resolved {s : Series} (foreign : s.IsForeign) : s.resolved.IsForeign := by
  intro reducer held group fault failed
  have known : (s.resolve .standard).2.reducer = some reducer → fault.topic? = none := by
    intro held
    rcases s.resolve_cases .standard with ⟨_, _, outcome⟩ | ⟨_, _, outcome⟩ |
      ⟨unbound, _, ⟨other, _, outcome⟩ | ⟨_, outcome⟩⟩
    all_goals rw [outcome] at held
    · exact foreign reducer held group fault failed
    · exact foreign reducer held group fault failed
    · cases held
      exact foreign.of_resolve (by rw [outcome]) group fault failed
    · exact foreign reducer held group fault failed
  rw [Series.resolved] at held
  split at held
  · exact foreign reducer held group fault failed
  · exact known held

end Series

namespace Json

theorem isShown_eq {s : Series} (foreign : s.IsForeign) : isShown s = s.isReadable := by
  have hidden :
      isShown s = false ↔ ∃ unknown, s.aggregated.1 = .error (.unknownReducer unknown) := by
    rw [isShown]
    split <;> simp_all
  rw [Bool.eq_iff_iff, ← not_iff_not, Bool.not_eq_true, Bool.not_eq_true, hidden,
    Series.isReadable_eq]
  simp only [Series.aggregated_unknown_iff, foreign.not_feigns, or_false, exists_and_left,
    ← Option.isSome_iff_exists]
  cases s.view <;> cases s.reportBy .standard <;> simp

theorem entry_of_kept {s : Series} {view : List Sample} (kept : s.view = some view) :
    (entry s).1 = (Time.instants s.start s.aggregatedStep view.length).map
      fun times => .ok ⟨s.name, view.zip times, s.tags⟩ := by
  have read : s.aggregated = (.ok view, s) := by simp [Series.aggregated, kept]
  simp only [entry, read, aggregatedTimestamps_of_ok read]
  cases Time.instants s.start s.aggregatedStep view.length <;> rfl

/-- A resolution does not change the entry of a series, whatever view it keeps. -/
theorem entry_of_resolved (s : Series) : (entry s.resolved).1 = (entry s).1 := by
  cases kept : s.view with
  | none =>
    have bound : s.IsBound := by simp [Series.IsBound, kept]
    rw [Series.entry_resolved bound]
  | some view =>
    have still : s.resolved.view = some view := by
      rw [Series.resolved_frame]
      exact kept
    rw [entry_of_kept kept, entry_of_kept still, Series.aggregatedStep, Series.resolved_frame]
    rfl

/-- A document has one entry for each series of a batch that can be read, in order, and a reader
finds it there. -/
def ShowsReadable (batch : Batch) (store : Store) (shown : Document) : Prop :=
  ∃ entries text, shown = .text text ∧ text = document entries ∧ Reads text entries ∧
    List.Forall₂ (fun s e => Accounts s (.ok e)) ((batch.series store).filter Series.isReadable)
      entries

theorem entries_of_encode {batch : Batch} {store : Store} {text : List Char}
    {unknowns : List UnknownReducer} (foreign : ∀ s ∈ batch.series store, s.IsForeign)
    (done : (encode batch store).1 = .ok (text, unknowns)) :
    ∃ entries, text = document entries ∧
      List.Forall₂ (fun s e => (entry s).1 = .ok (.ok e))
        ((batch.series store).filter Series.isReadable) entries := by
  have readable : (batch.series store).filter isShown =
      (batch.series store).filter Series.isReadable :=
    List.filter_congr fun s member => isShown_eq (foreign s member)
  rcases read : contents (batch.present store) store with ⟨fault | found, after⟩
  · simp [encode, read, Except.map] at done
  · simp only [encode, read, Except.map, Except.ok.injEq, Prod.mk.injEq] at done
    rw [← readable]
    exact ⟨found.entries, done.1.symm, entries_of_contents read⟩

theorem showsReadable_of_encode {batch : Batch} {store : Store} {text : List Char}
    {unknowns : List UnknownReducer} (foreign : ∀ s ∈ batch.series store, s.IsForeign)
    (done : (encode batch store).1 = .ok (text, unknowns)) :
    ShowsReadable batch store (.text text) := by
  obtain ⟨entries, rfl, written⟩ := entries_of_encode foreign done
  exact ⟨entries, _, rfl, rfl, reads_document entries, written.imp fun _ _ => accounts_of_entry⟩

end Json

namespace Batch

theorem foreign_resolve {batch : Batch} {store : Store}
    (foreign : ∀ s ∈ batch.series store, s.IsForeign) :
    ∀ s ∈ batch.series (batch.resolve .standard store).2, s.IsForeign := by
  rw [series_resolve, Series.resolvedBy_standard]
  intro s member
  obtain ⟨r, before, rfl⟩ := List.mem_map.mp member
  exact (foreign r before).resolved

section

variable [Runtime] (name : Text) (budget : Option Int) (config : Config) (batch : Batch)
  (errors : List UnknownReducer) (store : Store)

/-- Planning leaves the reducers. -/
theorem foreign_prepare (foreign : ∀ s ∈ batch.series store, s.IsForeign) :
    ∀ s ∈ batch.series (batch.prepare budget store).2, s.IsForeign := by
  have framed := Store.prepare_frame budget batch store
  intro s member
  obtain ⟨i, chosen, found⟩ := mem_series.mp member
  rw [present_eq framed.length_eq.symm] at chosen
  obtain ⟨r, earlier, same⟩ := Store.found_before framed found
  rw [same]
  exact foreign r (mem_series.mpr ⟨i, chosen, earlier⟩)

/-- A document of a batch after its resolution shows what one of the batch before would. -/
theorem showsReadable_of_resolved {document : Document} {format : Format} (json : format = .json)
    (foreign : ∀ s ∈ batch.series store, s.IsForeign)
    (done : (format.write config batch (batch.resolve .standard store).2).1 = .ok document) :
    Json.ShowsReadable batch store document := by
  subst json
  rcases read : Json.encode batch (batch.resolve .standard store).2 with
    ⟨fault | ⟨text, unknowns⟩, after⟩
  · simp [Format.write, read, Except.map] at done
  · simp only [Format.write, read, Except.map, Except.ok.injEq] at done
    have kept : ∀ s ∈ batch.series (batch.resolve .standard store).2, s.IsForeign :=
      foreign_resolve foreign
    obtain ⟨entries, rfl, written⟩ := Json.entries_of_encode kept (congrArg Prod.fst read)
    have same : Series.isReadable ∘ Series.resolved = Series.isReadable :=
      funext Series.isReadable_resolved
    rw [series_resolve, Series.resolvedBy_standard, List.filter_map, same,
      List.forall₂_map_left_iff] at written
    refine ⟨entries, _, done.symm, rfl, Json.reads_document entries,
      written.imp fun s e first => Json.accounts_of_entry ?_⟩
    rw [← Json.entry_of_resolved]
    exact first

/-- A request whose reports are added to a list of the caller's, before the document is written, so
that they are there even if the writing fails. -/
def encodeInto : Except Fault Document × List UnknownReducer × Store :=
  match Format.ofName? name with
  | none => (.error (.unknownFormat name), errors, store)
  | some format =>
    match batch.prepare budget store with
    | (.error fault, store) => (.error fault, errors, store)
    | (.ok (), store) =>
      let (unknowns, store) := batch.resolve .standard store
      let (outcome, store) := format.write config batch store
      (outcome, errors ++ unknowns, store)

/-- It is the same request: the list goes on with the reports that the answer has. -/
theorem encode_eq_encodeInto :
    ∃ reports, (batch.encodeInto name budget config errors store).2.1 = errors ++ reports ∧
      batch.encode name budget config store =
        ((batch.encodeInto name budget config errors store).1.map
            fun document => (document, reports),
          (batch.encodeInto name budget config errors store).2.2) := by
  cases named : Format.ofName? name with
  | none => exact ⟨[], by simp [encodeInto, named], by simp [encode, encodeInto, named, Except.map]⟩
  | some format =>
    simp only [encode_eq named, encodeInto, named]
    rcases batch.prepare budget store with ⟨fault | ⟨⟩, next⟩
    · exact ⟨[], (List.append_nil errors).symm, rfl⟩
    · exact ⟨(batch.resolve .standard next).1, rfl, rfl⟩

/-- A plan is turned away for its budget, with nothing planned, or fails late. -/
theorem prepare_cases :
    (∃ points, budget = some points ∧ points ≤ 0 ∧ isWritable points = true ∧
      batch.prepare budget store = (.error (.budgetNotPositive points), store)) ∨
    Fault.Accepted (batch.prepare budget store).1 := by
  cases budget with
  | none => exact .inr (Fault.accepted_ok ())
  | some points =>
    rcases batch.rejected_or_accepted points store with ⟨few, writable, rejected⟩ | accepted
    · exact .inl ⟨points, rfl, few, writable, rejected⟩
    · exact .inr accepted

theorem encodeInto_of_unnamed (unnamed : Format.ofName? name = none) :
    batch.encodeInto name budget config errors store =
      (.error (.unknownFormat name), errors, store) := by
  simp only [encodeInto, unnamed]

/-- A request with a format of that name fails in its plan, or resolves the planned batch and writes
it. -/
theorem encodeInto_eq {format : Format} (named : Format.ofName? name = some format) :
    batch.encodeInto name budget config errors store =
      match batch.prepare budget store with
      | (.error fault, next) => (.error fault, errors, next)
      | (.ok (), next) =>
        ((format.write config batch (batch.resolve .standard next).2).1,
          errors ++ (batch.resolve .standard next).1,
          (format.write config batch (batch.resolve .standard next).2).2) := by
  simp only [encodeInto, named]

theorem rejected_of_encodeInto (foreign : ∀ s ∈ batch.series store, s.IsForeign) {fault : Fault}
    (failed : (batch.encodeInto name budget config errors store).1 = .error fault)
    (rejection : fault.IsRejection) :
    batch.encodeInto name budget config errors store = (.error fault, errors, store) ∧
      ((Format.ofName? name = none ∧ fault = .unknownFormat name) ∨
        (Format.ofName? name).isSome ∧ ∃ points, budget = some points ∧ points ≤ 0 ∧
          fault = .budgetNotPositive points) := by
  cases named : Format.ofName? name with
  | none =>
    rw [encodeInto_of_unnamed name budget config batch errors store named] at failed ⊢
    cases failed
    exact ⟨rfl, .inl ⟨rfl, rfl⟩⟩
  | some format =>
    have planned := foreign_prepare budget batch store foreign
    rw [encodeInto_eq name budget config batch errors store named] at failed ⊢
    rcases prepare_cases budget batch store with ⟨points, given, few, _, rejected⟩ | accepted
    · rw [rejected] at failed ⊢
      cases failed
      exact ⟨rfl, .inr ⟨by simp, points, given, few, rfl⟩⟩
    · rcases prepared : batch.prepare budget store with ⟨late | ⟨⟩, next⟩
      · rw [prepared] at failed accepted
        cases failed
        exact absurd rejection (accepted fault rfl)
      · rw [prepared] at failed planned
        have kept := foreign_resolve planned
        exact absurd rejection (format.write_accepted config kept fault failed)

/-- A request fails for want of a reducer in no state and with no reducers whatever. -/
theorem encodeInto_ne_unknown (unknown : UnknownReducer) :
    (batch.encodeInto name budget config errors store).1 ≠ .error (.unknownReducer unknown) := by
  have missing : (Fault.unknownReducer unknown).IsRejection := by
    simp [Fault.IsRejection, Fault.topic?]
  intro failed
  cases named : Format.ofName? name with
  | none =>
    rw [encodeInto_of_unnamed name budget config batch errors store named] at failed
    cases failed
  | some format =>
    rw [encodeInto_eq name budget config batch errors store named] at failed
    rcases prepare_cases budget batch store with ⟨points, _, _, _, rejected⟩ | accepted
    · rw [rejected] at failed
      cases failed
    · rcases prepared : batch.prepare budget store with ⟨late | ⟨⟩, next⟩
      · rw [prepared] at failed accepted
        cases failed
        exact accepted _ rfl missing
      · rw [prepared] at failed
        exact format.write_ne_unknown config batch _ unknown failed

/-- What is asked for is checked before anything is done: an unknown format comes before a budget
that is not positive, and either of them leaves the series and the caller's list. There is no other
rejection, whatever state the series are in, if their reducers fail for reasons of their own; and a
document that is written then shows every series that can be read as it is planned. No document
fails for want of a reducer, whatever the reducers do. -/
theorem rejections_of_encode :
    ((∀ s ∈ batch.series store, s.IsForeign) →
      (∀ fault, (batch.encodeInto name budget config errors store).1 = .error fault →
        fault.IsRejection →
          batch.encodeInto name budget config errors store = (.error fault, errors, store) ∧
            ((Format.ofName? name = none ∧ fault = .unknownFormat name) ∨
              (Format.ofName? name).isSome ∧ ∃ points, budget = some points ∧ points ≤ 0 ∧
                fault = .budgetNotPositive points)) ∧
      (∀ fault, (Json.encode batch store).1 = .error fault → ¬ fault.IsRejection) ∧
      (∀ text unknowns, (Json.encode batch store).1 = .ok (text, unknowns) →
        Json.ShowsReadable batch store (.text text)) ∧
      ∀ document, Format.ofName? name = some .json →
        (batch.encodeInto name budget config errors store).1 = .ok document →
          Json.ShowsReadable batch (batch.prepare budget store).2 document) ∧
    (Format.ofName? name = none →
      batch.encodeInto name budget config errors store =
        (.error (.unknownFormat name), errors, store)) ∧
    (∀ points, (Format.ofName? name).isSome → budget = some points → isWritable points = true →
      points ≤ 0 →
        batch.encodeInto name budget config errors store =
          (.error (.budgetNotPositive points), errors, store)) ∧
    (∀ unknown,
      (batch.encodeInto name budget config errors store).1 ≠ .error (.unknownReducer unknown) ∧
        (Json.encode batch store).1 ≠ .error (.unknownReducer unknown)) ∧
    List.Forall₂ (fun s r => r = { s with grouping := r.grouping, view := r.view }) store
      (batch.prepare budget store).2 := by
  refine ⟨fun foreign => ⟨fun fault => ?_, Json.encode_accepted foreign,
    fun _ _ => Json.showsReadable_of_encode foreign, ?_⟩,
    encodeInto_of_unnamed name budget config batch errors store, ?_,
    fun unknown => ⟨encodeInto_ne_unknown name budget config batch errors store unknown,
      Json.encode_ne_unknown batch store unknown⟩,
    Store.prepare_frame budget batch store⟩
  · exact rejected_of_encodeInto name budget config batch errors store foreign
  · intro document json done
    have planned := foreign_prepare budget batch store foreign
    rw [encodeInto_eq name budget config batch errors store json] at done
    rcases prepared : batch.prepare budget store with ⟨fault | ⟨⟩, next⟩
    · rw [prepared] at done
      cases done
    · rw [prepared] at done planned
      exact showsReadable_of_resolved config batch next rfl planned done
  · intro points named given writable few
    obtain ⟨format, named⟩ := Option.isSome_iff_exists.mp named
    have unplanned : batch.prepare budget store = (.error (.budgetNotPositive points), store) := by
      rw [given, prepare, consolidate_of_few writable few]
    rw [encodeInto_eq name budget config batch errors store named, unplanned]

end

/-- A series without a reducer, twice, beside one that has a reducer. -/
theorem rejections_of_encode_mixed :
    ∃ (store after : Store) (document : Document),
      store = Store.run [] [.makeTagged "a" [.ofNat 1, .missing, .ofNat 3] 10 0 [], .regroup 0 2,
        .makeTagged "b" [.ofNat 1] 10 0 [], .edit 1 (.consolidation "none"), .regroup 1 2] ∧
      encodeInto "nope" (some (-1)) {} [some 1, none, some 0, some 1] [⟨"c", "d"⟩] store =
        (.error (.unknownFormat "nope"), [⟨"c", "d"⟩], store) ∧
      encodeInto "JSON" (some 0) {} [some 1, none, some 0, some 1] [⟨"c", "d"⟩] store =
        (.error (.budgetNotPositive 0), [⟨"c", "d"⟩], store) ∧
      encodeInto "JSON" none {} [some 1, none, some 0, some 1] [⟨"c", "d"⟩] store =
        (.ok document, [⟨"c", "d"⟩, ⟨"b", "none"⟩, ⟨"b", "none"⟩], after) ∧
      Json.ShowsReadable [some 1, none, some 0, some 1] store document ∧
      ((series store [some 1, none, some 0, some 1]).filter Series.isReadable).length = 1 := by
  let store : Store := Store.run [] [.makeTagged "a" [.ofNat 1, .missing, .ofNat 3] 10 0 [],
    .regroup 0 2, .makeTagged "b" [.ofNat 1] 10 0 [], .edit 1 (.consolidation "none"), .regroup 1 2]
  let batch : Batch := [some 1, none, some 0, some 1]
  let errors : List UnknownReducer := [⟨"c", "d"⟩]
  have unnamed : Format.ofName? "nope" = none := by decide +kernel
  have named : Format.ofName? "JSON" = some .json := by decide +kernel
  have reported : (encodeInto "JSON" none {} batch errors store).2.1 =
      [⟨"c", "d"⟩, ⟨"b", "none"⟩, ⟨"b", "none"⟩] := by
    decide +kernel
  have written : (encodeInto "JSON" none {} batch errors store).1.isOk = true := by decide +kernel
  have readable : ((batch.series store).filter Series.isReadable).length = 1 := by decide +kernel
  have unbound : (batch.series store).all (fun s => s.reducer.isNone) = true := by decide +kernel
  have foreign : ∀ s ∈ batch.series store, s.IsForeign := by
    intro s member reducer held
    have none_held := List.all_eq_true.mp unbound s member
    rw [held] at none_held
    cases none_held
  rcases answer : encodeInto "JSON" none {} batch errors store with
    ⟨fault | document, reports, after⟩
  · rw [answer] at written
    cases written
  · rw [answer] at reported
    obtain ⟨_, format, _⟩ := rejections_of_encode "nope" (some (-1)) {} batch errors store
    obtain ⟨_, _, few, _⟩ := rejections_of_encode "JSON" (some 0) {} batch errors store
    obtain ⟨shows, _⟩ := rejections_of_encode "JSON" none {} batch errors store
    obtain ⟨_, _, _, shows⟩ := shows foreign
    refine ⟨store, after, document, rfl, format unnamed, ?_, ?_, ?_, readable⟩
    · exact few 0 (Option.isSome_of_eq_some named) rfl (isWritable_of_lt (by decide +kernel)) le_rfl
    · simp only at reported
      rw [← reported]
      exact answer
    · have shown := shows document named (by rw [answer])
      have unplanned (current : Store) : (prepare none batch current).2 = current := rfl
      rw [unplanned] at shown
      exact shown

end Batch

end Rollup
