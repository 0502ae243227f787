import Rollup.Proofs.Store.Evolution

/-!
No operation reaches further than the series it is given. Main statement: the series at all other
positions of a store are the same after an operation, whether it answers or fails.
-/

namespace Rollup

/-- The positions of the series that an operation is given. -/
def Operation.positions : Operation → List Nat
  | .make .. | .makeTagged .. | .insert _ => []
  | .edit i _ | .regroup i _ | .resolve i _ | .aggregate i | .aggregated i | .aggregatedStep i
  | .timestamps i | .aggregatedTimestamps i | .check i _ => [i]
  | .consolidate batch _ | .resolveBatch batch _ | .csv batch _ | .json batch | .pickle batch _
  | .protobuf batch | .raw batch | .encode batch _ _ _ => batch.filterMap id

variable {batch : Batch} {store : Store} {i : Nat}

namespace Batch

theorem not_mem_present (outside : i ∉ batch.filterMap id) : i ∉ batch.present store := by
  intro member
  exact outside (List.mem_of_mem_filter member)

theorem getElem?_consolidate [Runtime] (outside : i ∉ batch.filterMap id) (budget : Int) :
    (batch.consolidate budget store).2[i]? = store[i]? := by
  simp only [consolidate]
  split
  · rfl
  · split
    · rfl
    · obtain ⟨visited, first, walked, _⟩ := Store.planAll_walk
        ((timeRange (batch.series store)).2 - (timeRange (batch.series store)).1) budget
        (batch.present store) store
      rw [walked]
      apply Store.getElem?_walk_of_not_mem
      intro member
      exact not_mem_present outside (first.subset member)

theorem getElem?_prepare [Runtime] (outside : i ∉ batch.filterMap id) (budget : Option Int) :
    (batch.prepare budget store).2[i]? = store[i]? := by
  cases budget with
  | none => rfl
  | some budget => exact getElem?_consolidate outside budget

theorem getElem?_resolve (outside : i ∉ batch.filterMap id) (registry : Registry) :
    (batch.resolve registry store).2[i]? = store[i]? := by
  rw [resolve, Store.resolveAll_walk]
  exact Store.getElem?_walk_of_not_mem (not_mem_present outside)

theorem getElem?_json (outside : i ∉ batch.filterMap id) :
    (Json.encode batch store).2[i]? = store[i]? := by
  obtain ⟨visited, first, walked, _⟩ := Store.contents_walk (batch.present store) store
  change (Json.contents (batch.present store) store).2[i]? = store[i]?
  rw [walked]
  apply Store.getElem?_walk_of_not_mem
  intro member
  exact not_mem_present outside (first.subset member)

theorem getElem?_write [Runtime] (outside : i ∉ batch.filterMap id) (format : Format)
    (config : Config) :
    (format.write config batch store).2[i]? = store[i]? := by
  cases format with
  | json => exact getElem?_json outside
  | csv | pickle | protobuf | raw => rfl

theorem getElem?_encode [Runtime] (outside : i ∉ batch.filterMap id) (name : Text)
    (budget : Option Int) (config : Config) :
    (batch.encode name budget config store).2[i]? = store[i]? := by
  have planned : (batch.prepare budget store).2[i]? = store[i]? := getElem?_prepare outside budget
  rcases batch.encode_cases name budget config store with
    ⟨_, answer⟩ | ⟨fault, next, failed, answer⟩ | ⟨format, next, _, prepared, answer⟩
  · rw [answer]
  · rw [failed] at planned
    rw [answer]
    exact planned
  · rw [prepared] at planned
    rw [answer]
    simp only
    rw [getElem?_write outside, getElem?_resolve outside]
    exact planned

end Batch

namespace Store

theorem getElem?_onSeries {j : Nat} (other : i ≠ j)
    (act : Series → Except Fault Answer × Series) :
    (store.onSeries j act).2[i]? = store[i]? := by
  simp only [onSeries]
  split
  · rfl
  · exact List.getElem?_set_ne (Ne.symm other)

theorem getElem?_add (inside : i < store.length) (made : Except Fault Series) :
    (store.add made).2[i]? = store[i]? := by
  cases made with
  | error fault => rfl
  | ok s => exact List.getElem?_append_left inside

end Store

end Rollup
